/-
# Whose session it is

Of all that a receiver has been asked, and of all that it has answered, little
counts for what comes next: the last pairing that succeeded, and the last
session that was opened, if it has not been cancelled since (`lastPeer`,
`lastOpened`). The receiver holds that peer and a session of just the files
that were accepted then (`Reflects`), however many requests were refused in
between and whatever sessions there were before, with the same ids or others.

Key definitions: `Exchange`, `Receiver.exchanges`, `lastPeer`, `lastOpened`,
`Receiver.Reflects`, `Receiver.Scoped`.
Key theorems: `Receiver.Reflects.perform`, `Receiver.Reflects.after`,
`Receiver.scoped_after`.
-/
import FileReceiver.Proofs.Refusals

namespace FileReceiver

/-- What was asked of a receiver, and what it answered. -/
structure Exchange where
  asked : Operation
  answer : Except Refusal Reply

namespace Exchange

/-- The peer that was connected. -/
def peer? (x : Exchange) : Option Device :=
  match x.asked, x.answer with
  | .pair _ remote, .ok _ => some remote
  | _, _ => none

/-- What was made of the current session: the one that was opened, or none if it was cancelled. -/
def session? (x : Exchange) : Option (Option Opened) :=
  match x.asked, x.answer with
  | .openSession _ _, .ok (.opened opened) => some (some opened)
  | .cancelSession _, .ok _ => some none
  | _, _ => none

end Exchange

/-- The peer of the last pairing that succeeded. -/
def lastPeer (past : List Exchange) : Option Device :=
  (past.filterMap Exchange.peer?).getLast?

/-- The last session that was opened, unless it has been cancelled. -/
def lastOpened (past : List Exchange) : Option Opened :=
  (past.filterMap Exchange.session?).getLast?.join

variable {past : List Exchange} {x : Exchange}

theorem lastPeer_concat (past : List Exchange) (x : Exchange) :
    lastPeer (past ++ [x]) = x.peer?.or (lastPeer past) := by
  unfold lastPeer
  rw [List.filterMap_append, List.getLast?_append]
  cases h : x.peer? <;> simp [h]

theorem lastOpened_concat (past : List Exchange) (x : Exchange) :
    lastOpened (past ++ [x]) = x.session?.getD (lastOpened past) := by
  unfold lastOpened
  rw [List.filterMap_append, List.getLast?_append]
  cases h : x.session? <;> simp [h]

/-- The id of a session that was opened and those of the files that were accepted. -/
def Opened.scope (opened : Opened) : String × List String :=
  (opened.sessionId, (opened.verdicts.filter (·.2)).map (·.1))

theorem Opened.mem_scope (opened : Opened) (fileId : String) :
    fileId ∈ opened.scope.2 ↔ (fileId, true) ∈ opened.verdicts := by
  simp [scope]

/-! ### Answers -/

/-- Every file of a manifest gets a verdict, and nothing else does. -/
theorem Admission.verdicts_perm (policy : Policy) (folder : Path) (manifest : Manifest) :
    ((ofManifest policy folder manifest).verdicts.map (·.1)).Perm (manifest.map (·.1)) := by
  have hfold : ∀ (entries : Manifest) (a : Admission),
      (entries.foldl (addFile policy folder) a).verdicts.map (·.1) =
        (entries.map (·.1)).reverse ++ a.verdicts.map (·.1) := by
    intro entries
    induction entries with
    | nil => exact fun a => rfl
    | cons entry rest ih =>
      intro a
      rw [List.foldl_cons, ih, verdicts_addFile]
      simp
  have hids : (ofManifest policy folder manifest).verdicts.map (·.1) =
      ((ordered manifest).map (·.1)).reverse := by
    rw [ofManifest, hfold]
    simp
  rw [hids]
  exact (List.reverse_perm _).trans ((perm_ordered manifest).map _)

theorem Session.fileIds_update (s : Session) (t : Transfer) :
    (s.update t).files.map (·.fileId) = s.files.map (·.fileId) := by
  unfold update
  rw [List.map_map]
  refine List.map_congr_left fun old _ => ?_
  simp only [Function.comp_apply]
  split
  · rename_i hid
    exact hid.symm
  · rfl

theorem Session.file?_eq_none_iff (s : Session) (fileId : String) :
    s.file? fileId = none ↔ fileId ∉ s.files.map (·.fileId) := by
  unfold file?
  rw [List.find?_eq_none, List.mem_map]
  constructor
  · rintro h ⟨t, ht, rfl⟩
    exact h t ht (beq_self_eq_true _)
  · intro h t ht hid
    exact h ⟨t, ht, beq_iff_eq.mp hid⟩

namespace Receiver

variable {r r' start : Receiver}

theorem pair_ok {pin : String} {remote : Device} {p : Paired}
    (h : r.pair pin remote = (.ok p, r')) :
    p.replaced = r.peer ∧ r' = { r with peer := some remote } := by
  unfold pair at h
  repeat' split at h
  all_goals cases h
  exact ⟨rfl, rfl⟩

theorem openForPeer_ok {id : String} {manifest : Manifest} {opened : Opened}
    (h : r.openForPeer id manifest = (.ok opened, r')) :
    opened = ⟨id, (Admission.ofManifest r.policy r.outputFolder manifest).verdicts.reverse,
        r.sessionId?⟩ ∧
      r'.session = some ⟨id, r.admitted manifest⟩ ∧ r'.peer = r.peer := by
  unfold openForPeer openSession at h
  repeat' split at h
  all_goals cases h
  exact ⟨rfl, rfl, rfl⟩

theorem writeChunk_ok {id : Option String} {fileId : String} {bytes : ByteArray} {c : ChunkReport}
    (h : r.writeChunk id fileId bytes = (.ok c, r')) :
    r'.peer = r.peer ∧ ∃ s t, r.session = some s ∧ r'.session = some (s.update t) := by
  unfold writeChunk at h
  split at h
  · cases h
  rename_i s hs
  split at h
  · cases h
  split at h
  · cases h
  · cases h
    exact ⟨rfl, s, _, hs, rfl⟩

theorem cancelForPeer_ok {id : String} {c : Cancelled}
    (h : r.cancelForPeer id = (.ok c, r')) : r'.peer = r.peer ∧ r'.session = none := by
  unfold cancelForPeer cancelSession at h
  repeat' split at h
  all_goals cases h
  exact ⟨rfl, rfl⟩

/-- A chunk is taken for none but the current session. -/
theorem writeChunk_mismatch_iff (r : Receiver) (id : Option String) (fileId : String)
    (bytes : ByteArray) :
    (r.writeChunk id fileId bytes).1 = .error (.sessionMismatch r.sessionId? id) ↔
      id = none ∨ id ≠ r.sessionId? := by
  unfold writeChunk sessionId?
  cases r.session with
  | none => exact ⟨fun _ => Classical.em (id = none), fun _ => rfl⟩
  | some s =>
    by_cases hid : id = some s.id
    · simp only [hid, ne_eq, not_true_eq_false, if_false, Option.map_some, reduceCtorEq, or_self,
        iff_false]
      split <;> simp
    · simp only [ne_eq, hid, not_false_eq_true, if_true, Option.map_some, or_true]

/-- Then it has to be of a file of that session. -/
theorem writeChunk_current {s : Session} (hs : r.session = some s) (fileId : String)
    (bytes : ByteArray) :
    ((r.writeChunk (some s.id) fileId bytes).1 = .error (.fileNotFound fileId) ↔
        fileId ∉ s.files.map (·.fileId)) ∧
      (fileId ∈ s.files.map (·.fileId) →
        ∃ report, (r.writeChunk (some s.id) fileId bytes).1 = .ok report) := by
  have hfile := s.file?_eq_none_iff fileId
  unfold writeChunk
  simp only [hs, ne_eq, not_true_eq_false, if_false]
  cases hf : s.file? fileId with
  | none =>
    rw [hf] at hfile
    exact ⟨⟨fun _ => hfile.mp rfl, fun _ => rfl⟩, fun hmem => absurd hmem (hfile.mp rfl)⟩
  | some t =>
    rw [hf] at hfile
    exact ⟨⟨nofun, fun hnot => absurd (hfile.mpr hnot) (by simp)⟩, fun _ => ⟨_, rfl⟩⟩

/-! ### Histories -/

/-- What is asked during a history, and what is answered. -/
def exchanges (r : Receiver) : List Event → List Exchange
  | [] => []
  | .asked o :: rest => ⟨o, (r.perform o).1⟩ :: (r.perform o).2.exchanges rest
  | .changed d :: rest => (r.on d).exchanges rest

/-- The id of the current session and those of its files. -/
def scope (r : Receiver) : Option (String × List String) :=
  r.session.map fun s => (s.id, s.files.map (·.fileId))

/-- A receiver holds what the past has left of it. -/
structure Reflects (r : Receiver) (past : List Exchange) : Prop where
  peer : r.peer = lastPeer past
  scope : r.scope = (lastOpened past).map Opened.scope

theorem Reflects.of_eq (h : r.Reflects past) (hpeer : r'.peer = r.peer) (hscope : r'.scope = r.scope)
    (hx : x.peer? = none) (hx' : x.session? = none) : r'.Reflects (past ++ [x]) := by
  constructor
  · rw [hpeer, h.peer, lastPeer_concat, hx, Option.none_or]
  · rw [hscope, h.scope, lastOpened_concat, hx', Option.getD_none]

theorem Reflects.pair (h : r.Reflects past) {pin : String} {remote : Device}
    {answer : Except Refusal Paired} (hp : r.pair pin remote = (answer, r')) :
    r'.Reflects (past ++ [⟨.pair pin remote, answer.map .paired⟩]) := by
  cases answer with
  | error e =>
    rw [pair_error hp]
    exact h.of_eq rfl rfl rfl rfl
  | ok p =>
    obtain ⟨-, rfl⟩ := pair_ok hp
    constructor
    · rw [lastPeer_concat]
      rfl
    · rw [lastOpened_concat]
      exact h.scope

theorem Reflects.openForPeer (h : r.Reflects past) {id : String} {manifest : Manifest}
    {answer : Except Refusal Opened} (ho : r.openForPeer id manifest = (answer, r')) :
    r'.Reflects (past ++ [⟨.openSession id manifest, answer.map .opened⟩]) := by
  cases answer with
  | error e =>
    obtain ⟨-, d, rfl, -⟩ := openForPeer_error ho
    exact h.of_eq rfl rfl rfl rfl
  | ok opened =>
    obtain ⟨hopened, hsession, hpeer⟩ := openForPeer_ok ho
    constructor
    · rw [lastPeer_concat]
      exact hpeer.trans h.peer
    · rw [lastOpened_concat]
      change r'.scope = some opened.scope
      rw [Receiver.scope, hsession, hopened, Option.map_some, Opened.scope, List.filter_reverse,
        List.map_reverse, Admission.accepted_verdicts, admitted, List.map_reverse]

theorem Reflects.writeChunk (h : r.Reflects past) {id : Option String} {fileId : String}
    {bytes : ByteArray} {answer : Except Refusal ChunkReport}
    (hw : r.writeChunk id fileId bytes = (answer, r')) :
    r'.Reflects (past ++ [⟨.writeChunk id fileId bytes, answer.map .report⟩]) := by
  cases answer with
  | error e =>
    rw [writeChunk_error hw]
    exact h.of_eq rfl rfl rfl rfl
  | ok c =>
    obtain ⟨hpeer, s, t, hs, hs'⟩ := writeChunk_ok hw
    refine h.of_eq hpeer ?_ rfl rfl
    rw [Receiver.scope, Receiver.scope, hs, hs', Option.map_some, Option.map_some,
      s.fileIds_update]
    rfl

theorem Reflects.cancelForPeer (h : r.Reflects past) {id : String}
    {answer : Except Refusal Cancelled} (hc : r.cancelForPeer id = (answer, r')) :
    r'.Reflects (past ++ [⟨.cancelSession id, answer.map .cancelled⟩]) := by
  cases answer with
  | error e =>
    rw [cancelForPeer_error hc]
    exact h.of_eq rfl rfl rfl rfl
  | ok c =>
    obtain ⟨hpeer, hsession⟩ := cancelForPeer_ok hc
    constructor
    · rw [lastPeer_concat]
      exact hpeer.trans h.peer
    · rw [lastOpened_concat, Receiver.scope, hsession]
      rfl

/-- **Only successes count.** -/
theorem Reflects.perform (h : r.Reflects past) (o : Operation) :
    (r.perform o).2.Reflects (past ++ [⟨o, (r.perform o).1⟩]) := by
  cases o with
  | pair => exact h.pair rfl
  | openSession => exact h.openForPeer rfl
  | writeChunk => exact h.writeChunk rfl
  | cancelSession => exact h.cancelForPeer rfl

theorem Reflects.after (h : r.Reflects past) (events : List Event) :
    (r.after events).Reflects (past ++ r.exchanges events) := by
  induction events generalizing r past with
  | nil => rwa [exchanges, List.append_nil]
  | cons e rest ih =>
    cases e with
    | asked o =>
      have hrest := ih (h.perform o)
      rwa [List.append_assoc] at hrest
    | changed d => exact ih (r := r.on d) ⟨h.peer, h.scope⟩

/-- What the past decides about whatever is asked next. -/
structure Scoped (r : Receiver) (past : List Exchange) : Prop where
  /-- The connected peer is the last one that paired. -/
  peer : r.peer = lastPeer past
  /-- The current session is the last one that was opened, with the files that were accepted. -/
  session : r.session.map (fun s => (s.id, s.files.map (·.fileId))) =
    (lastOpened past).map fun o => (o.sessionId, (o.verdicts.filter (·.2)).map (·.1))
  /-- Who pairs takes the place of that peer. -/
  pairing : ∀ {pin remote p r'}, r.pair pin remote = (.ok p, r') → p.replaced = lastPeer past
  /-- A session that is opened takes the place of that session, and gives a verdict on each file of
  its manifest. -/
  opening : ∀ {id manifest opened r'}, r.openForPeer id manifest = (.ok opened, r') →
    opened.sessionId = id ∧ opened.replaced = (lastOpened past).map (·.sessionId) ∧
      (opened.verdicts.map (·.1)).Perm (manifest.map (·.1))
  /-- A chunk has to name that session. -/
  mismatch : ∀ id fileId bytes,
    (r.writeChunk id fileId bytes).1 =
        .error (.sessionMismatch ((lastOpened past).map (·.sessionId)) id) ↔
      id = none ∨ id ≠ (lastOpened past).map (·.sessionId)
  /-- Then it has to be of a file that was accepted with it. -/
  unknown : ∀ opened, lastOpened past = some opened → ∀ fileId bytes,
    (r.writeChunk (some opened.sessionId) fileId bytes).1 = .error (.fileNotFound fileId) ↔
      (fileId, true) ∉ opened.verdicts
  /-- Then it is not refused. -/
  known : ∀ opened, lastOpened past = some opened → ∀ fileId bytes,
    (fileId, true) ∈ opened.verdicts →
      ∃ report, (r.writeChunk (some opened.sessionId) fileId bytes).1 = .ok report
  /-- A chunk that is refused changes nothing. -/
  refusal : ∀ {id fileId bytes e r'}, r.writeChunk id fileId bytes = (.error e, r') → r' = r

theorem Reflects.sessionId? (h : r.Reflects past) :
    r.sessionId? = (lastOpened past).map (·.sessionId) := by
  have hscope := congrArg (Option.map Prod.fst) h.scope
  rwa [Receiver.scope, Option.map_map, Option.map_map] at hscope

/-- The current session is the one that was opened last. -/
theorem Reflects.exists_session (h : r.Reflects past) {opened : Opened}
    (hlast : lastOpened past = some opened) :
    ∃ s, r.session = some s ∧ s.id = opened.sessionId ∧
      ∀ fileId, fileId ∈ s.files.map (·.fileId) ↔ (fileId, true) ∈ opened.verdicts := by
  have hscope := h.scope
  rw [hlast, Option.map_some] at hscope
  obtain ⟨s, hs, heq⟩ := Option.map_eq_some_iff.mp hscope
  refine ⟨s, hs, congrArg Prod.fst heq, fun fileId => ?_⟩
  rw [← opened.mem_scope, ← heq]

theorem Reflects.scoped (h : r.Reflects past) : r.Scoped past where
  peer := h.peer
  session := h.scope
  pairing hp := by
    rw [(pair_ok hp).1, h.peer]
  opening ho := by
    obtain ⟨rfl, -, -⟩ := openForPeer_ok ho
    refine ⟨rfl, h.sessionId?, ?_⟩
    rw [List.map_reverse]
    exact (List.reverse_perm _).trans (Admission.verdicts_perm _ _ _)
  mismatch id fileId bytes := by
    rw [← h.sessionId?]
    exact r.writeChunk_mismatch_iff id fileId bytes
  unknown opened hlast fileId bytes := by
    obtain ⟨s, hs, hid, hfiles⟩ := h.exists_session hlast
    rw [← hid, ← hfiles]
    exact (writeChunk_current hs fileId bytes).1
  known opened hlast fileId bytes hmem := by
    obtain ⟨s, hs, hid, hfiles⟩ := h.exists_session hlast
    rw [← hid]
    exact (writeChunk_current hs fileId bytes).2 ((hfiles fileId).mpr hmem)
  refusal hw := writeChunk_error hw

/-- **Sessions are scoped.** In every state that a fresh receiver reaches, whatever was asked and
answered on the way and whatever became of the disk, the last successful pairing and the last
session that was opened, unless it was cancelled, decide who is connected, what is current and which
chunks are refused. -/
theorem scoped_after (hr : start.IsFresh) (events : List Event) :
    (start.after events).Scoped (start.exchanges events) := by
  have hstart : start.Reflects [] := by
    obtain ⟨hpeer, hsession⟩ := hr
    refine ⟨hpeer, ?_⟩
    rw [Receiver.scope, hsession]
    rfl
  have hafter := hstart.after events
  rw [List.nil_append] at hafter
  exact hafter.scoped

/-- A session in place of another one of the same id, after a pairing that fails. -/
def reopening : List Event :=
  [.asked (.pair "123456" { id := "d", nickname := "n" }),
    .asked (.openSession "s" [("f", { size := 1 })]),
    .asked (.pair "000000" { id := "e", nickname := "m" }),
    .asked (.openSession "s" [("g", { size := 1 })])]

theorem reopened_forgets : unpairedExample.IsFresh ∧
    (unpairedExample.after reopening).peer = some { id := "d", nickname := "n" } ∧
    ((unpairedExample.after reopening).writeChunk (some "s") "f" ⟨#[7]⟩).1 =
      .error (.fileNotFound "f") ∧
    ∃ report, ((unpairedExample.after reopening).writeChunk (some "s") "g" ⟨#[7]⟩).1 =
      .ok report := by
  have hfresh : unpairedExample.IsFresh := ⟨rfl, rfl⟩
  have hf : Admission.ordered [("f", { size := 1 })] = [("f", { size := 1 })] :=
    List.mergeSort_singleton _
  have hg : Admission.ordered [("g", { size := 1 })] = [("g", { size := 1 })] :=
    List.mergeSort_singleton _
  have hpeer : lastPeer (unpairedExample.exchanges reopening) =
      some { id := "d", nickname := "n" } := by
    simp only [reopening, exchanges, perform, openForPeer, openSession, Admission.ofManifest, hf, hg]
    decide +kernel
  have hopened : lastOpened (unpairedExample.exchanges reopening) =
      some ⟨"s", [("g", true)], some "s"⟩ := by
    simp only [reopening, exchanges, perform, openForPeer, openSession, Admission.ofManifest, hf, hg]
    decide +kernel
  have hscoped := scoped_after hfresh reopening
  exact ⟨hfresh, hscoped.peer.trans hpeer, (hscoped.unknown _ hopened "f" ⟨#[7]⟩).mpr (by decide),
    hscoped.known _ hopened "g" ⟨#[7]⟩ (by decide)⟩

end Receiver
end FileReceiver
