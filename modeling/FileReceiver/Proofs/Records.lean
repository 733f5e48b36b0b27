/-
# Records move one way

The record of a file starts with nothing counted and ends completed, and on
the way it only ever counts more. Where it stands is told by what came of the
last chunk that was appended (`Standing`): it was counted and more is wanted,
or it was the last one and the file was completed, or failed to be. A chunk
that is not appended leaves the record as it is, and so does every chunk of a
completed file, for as long as the session lasts (`Receiver.Lasts`).

Key definitions: `Landing`, `Transfer.Standing`, `Transfer.Advances`,
`ChunkReport.Tells`, `Receiver.Lasts`, `Receiver.lastLanding`.
Key theorems: `Transfer.receive_standing`, `Transfer.receive_advances`,
`Receiver.standing_after`, `Receiver.advances_after`,
`Receiver.records_move_one_way`.
-/
import FileReceiver.Proofs.Courses
import FileReceiver.Proofs.Staging

namespace FileReceiver

/-- What comes of a chunk that has been appended. -/
inductive Landing where
  /-- It is counted, and more is wanted. -/
  | counted
  /-- It is the last one: the result of completing the file. -/
  | finished (result : ChunkResult)
deriving DecidableEq, Repr

/-- A report tells how a record stands. -/
structure ChunkReport.Tells (c : ChunkReport) (t : Transfer) : Prop where
  processed : c.processed = t.received
  hashVerified : c.hashVerified = t.hashVerified
  completed : c.result.status = .completed ↔ t.completed = true
  receiving : c.result.status = .receiving →
    t.completed = false ∧ t.received < t.declaredSize.toNat
  failed : c.result.status = .failed → t.completed = false

/-! ### One record -/

namespace Transfer

variable {t t' t'' : Transfer} {d d' : Disk} {bytes : ByteArray} {result : ChunkResult}

/-- What comes of a chunk, if it is appended. -/
def landing? (t : Transfer) (bytes : ByteArray) (d : Disk) : Option Landing :=
  if t.completed then none
  else
    match t.append bytes d with
    | (.error _, _) => none
    | (.ok (), d) =>
      if t.received + bytes.size < t.declaredSize.toNat then some .counted
      else some (.finished ((t.counting bytes.size).finish d).1)

/-- How a record stands after what came of the last chunk that was appended, if there was one. -/
def Standing (t : Transfer) : Option Landing → Prop
  | none => t.received = 0 ∧ t.completed = false
  | some .counted => t.received < t.declaredSize.toNat ∧ t.completed = false
  | some (.finished result) => t.declaredSize.toNat ≤ t.received ∧
      ((∃ e, result = .failed e) ∧ t.completed = false ∨
        result.status = .completed ∧ t.completed = true)

/-- A record goes on: nothing that has been counted is lost, and a completed one stays. -/
structure Advances (t t' : Transfer) : Prop where
  received : t.received ≤ t'.received
  settled : t.completed = true → t' = t

theorem Advances.refl (t : Transfer) : t.Advances t := ⟨Nat.le_refl _, fun _ => rfl⟩

theorem Advances.trans (h : t.Advances t') (h' : t'.Advances t'') : t.Advances t'' := by
  refine ⟨Nat.le_trans h.received h'.received, fun hdone => ?_⟩
  have hsame := h.settled hdone
  rw [← hsame] at hdone
  rw [h'.settled hdone, hsame]

/-- A file that has its bytes is completed, or a failure is the last that came of them. -/
theorem Standing.full {last : Option Landing} (h : t.Standing last) :
    (t.completed = true → t.declaredSize.toNat ≤ t.received) ∧
      (t.completed = false → t.declaredSize.toNat ≤ t.received → 0 < t.declaredSize.toNat →
        ∃ e, last = some (.finished (.failed e))) := by
  rcases last with _ | _ | result
  · obtain ⟨hnone, hopen⟩ := h
    exact ⟨fun hdone => by simp [hopen] at hdone, fun _ _ _ => by omega⟩
  · obtain ⟨hmore, hopen⟩ := h
    exact ⟨fun hdone => by simp [hopen] at hdone, fun _ _ _ => by omega⟩
  · obtain ⟨hfull, ⟨⟨e, rfl⟩, -⟩ | ⟨-, hdone⟩⟩ := h
    · exact ⟨fun _ => hfull, fun _ _ _ => ⟨e, rfl⟩⟩
    · exact ⟨fun _ => hfull, fun hopen => by simp [hdone] at hopen⟩

/-- Completing counts nothing; it fails and leaves the file incomplete, or it completes it. -/
theorem finish_result (h : t.finish d = (result, t', d')) :
    t'.received = t.received ∧ t'.declaredSize = t.declaredSize ∧
      ((∃ e, result = .failed e) ∧ t'.completed = t.completed ∨
        result.status = .completed ∧ t'.completed = true) := by
  unfold finish at h
  split at h
  · cases h
    exact ⟨rfl, rfl, Or.inl ⟨⟨_, rfl⟩, rfl⟩⟩
  rename_i compared _ hverify
  obtain ⟨v, rfl⟩ := verify_keeps hverify
  split at h
  · cases h
    exact ⟨rfl, rfl, Or.inl ⟨⟨_, rfl⟩, rfl⟩⟩
  · cases h
    exact ⟨rfl, rfl, Or.inr ⟨status_completion _, rfl⟩⟩

/-- **A chunk moves a record on**, or leaves it as it is. -/
theorem receive_advances (h : t.receive bytes d = (result, t', d')) : t.Advances t' := by
  rcases receive_cases h with ⟨-, -, rfl, -⟩ | ⟨hopen, hcases⟩
  · exact .refl t'
  refine ⟨?_, fun hdone => by simp [hopen] at hdone⟩
  rcases hcases with ⟨-, -, -, rfl⟩ | ⟨appended, -, ⟨-, -, rfl, -⟩ | ⟨-, hfinish⟩⟩
  · exact Nat.le_refl _
  · exact Nat.le_add_right _ _
  · rw [(finish_result hfinish).1]
    exact Nat.le_add_right _ _

/-- **The last chunk that is appended says how a record stands.** -/
theorem receive_standing {last : Option Landing} (hs : t.Standing last)
    (h : t.receive bytes d = (result, t', d')) : t'.Standing ((t.landing? bytes d).or last) := by
  unfold landing?
  rcases receive_cases h with ⟨hdone, -, rfl, -⟩ | ⟨hopen, hcases⟩
  · rw [if_pos hdone]
    exact hs
  rw [if_neg (by simp [hopen])]
  rcases hcases with ⟨e, happend, -, rfl⟩ | ⟨appended, happend, hcases⟩
  · rw [happend]
    exact hs
  rw [happend]
  rcases hcases with ⟨hmore, -, rfl, -⟩ | ⟨hfull, hfinish⟩
  · simp only [if_pos hmore]
    exact ⟨hmore, hopen⟩
  · simp only [if_neg (Nat.not_lt.mpr hfull), hfinish]
    obtain ⟨hcount, hsize, hresult⟩ := finish_result hfinish
    refine ⟨by rw [hcount, hsize]; exact hfull, hresult.imp_left fun ⟨hfailed, hsame⟩ => ?_⟩
    exact ⟨hfailed, hsame.trans hopen⟩

/-- **A report tells how the record stands** after the chunk. -/
theorem receive_tells (h : t.receive bytes d = (result, t', d')) (sessionId : String) :
    (t'.report sessionId result).Tells t' := by
  suffices hstatus : (result.status = .completed ↔ t'.completed = true) ∧
      (result.status = .receiving → t'.completed = false ∧
        t'.received < t'.declaredSize.toNat) ∧
      (result.status = .failed → t'.completed = false) from
    ⟨rfl, rfl, hstatus.1, hstatus.2.1, hstatus.2.2⟩
  rcases receive_cases h with ⟨hdone, rfl, rfl, -⟩ | ⟨hopen, hcases⟩
  · simp [ChunkResult.status, hdone]
  rcases hcases with ⟨e, -, rfl, rfl⟩ | ⟨appended, -, ⟨hmore, rfl, rfl, -⟩ | ⟨-, hfinish⟩⟩
  · simp [ChunkResult.status, hopen]
  · simp [ChunkResult.status, counting, hopen, hmore]
  · obtain ⟨-, -, ⟨⟨e, rfl⟩, hsame⟩ | ⟨hstatus, hdone⟩⟩ := finish_result hfinish
    · simp [ChunkResult.status, hsame, counting, hopen]
    · simp [hstatus, hdone]

end Transfer

/-- What comes of a chunk that has come, if it is appended. -/
def Arrival.landing? (a : Arrival) : Option Landing :=
  a.record.landing? a.bytes a.disk

/-! ### The records of a session -/

namespace Receiver

variable {r r' start : Receiver} {fileId : String} {last : Option Landing} {t : Transfer}

/-- What comes of a chunk that an operation brings for a file of the current session, if it is
appended. -/
def landing? (r : Receiver) (fileId : String) : Operation → Option Landing
  | .writeChunk sessionId id bytes =>
    if id = fileId ∧ sessionId = r.sessionId? then
      (r.file? fileId).bind (·.landing? bytes r.disk)
    else none
  | _ => none

/-- What came of the last chunk that the current session has appended for a file, after an event. -/
def landed (r : Receiver) (fileId : String) (last : Option Landing) : Event → Option Landing
  | .asked (.openSession id manifest) => if (r.openForPeer id manifest).1.isOk then none else last
  | .asked o => (r.landing? fileId o).or last
  | .changed _ => last

/-- What came of the last chunk that the current session has appended for a file, after a
history. -/
def lastLanding (fileId : String) :
    Receiver → Option Landing → List Event → Option Landing
  | _, last, [] => last
  | r, last, e :: rest => lastLanding fileId (r.meet e) (r.landed fileId last e) rest

/-- Nothing that is asked during a history opens a session or ends one. -/
def Lasts (r : Receiver) (events : List Event) : Prop :=
  ∀ x ∈ r.exchanges events, x.session? = none

instance (r : Receiver) (events : List Event) : Decidable (r.Lasts events) :=
  inferInstanceAs (Decidable (∀ x ∈ r.exchanges events, x.session? = none))

theorem Lasts.asked {o : Operation} {rest : List Event} (h : r.Lasts (.asked o :: rest)) :
    (Exchange.mk o (r.perform o).1).session? = none ∧ (r.perform o).2.Lasts rest :=
  ⟨h _ List.mem_cons_self, fun x hx => h x (List.mem_cons_of_mem _ hx)⟩

/-- An operation that neither opens a session nor ends one leaves its files, or a file of it
receives a chunk. -/
theorem perform_lasting (r : Receiver) (o : Operation)
    (h : (Exchange.mk o (r.perform o).1).session? = none) :
    (r.perform o).2.session = r.session ∨
      ∃ s fileId t bytes result t' d, r.session = some s ∧ s.file? fileId = some t ∧
        o = .writeChunk (some s.id) fileId bytes ∧ t.receive bytes r.disk = (result, t', d) ∧
        (r.perform o).2.session = some (s.update t') := by
  cases o with
  | pair pin remote => exact Or.inl (r.pair_session pin remote)
  | openSession id manifest =>
    left
    change (r.openForPeer id manifest).2.session = r.session
    rcases ho : r.openForPeer id manifest with ⟨e | opened, r'⟩
    · obtain ⟨-, d, rfl, -⟩ := openForPeer_error ho
      rfl
    · simp [perform, ho, Exchange.session?, Except.map] at h
  | writeChunk id fileId bytes =>
    rcases hw : r.writeChunk id fileId bytes with ⟨e | c, r'⟩
    · left
      change (r.writeChunk id fileId bytes).2.session = r.session
      rw [hw, writeChunk_error hw]
    · obtain ⟨s, t, result, t', d, hs, rfl, hfile, hreceive, -, rfl⟩ := exists_of_writeChunk hw
      refine Or.inr ⟨s, fileId, t, bytes, result, t', d, hs, hfile, rfl, hreceive, ?_⟩
      change (r.writeChunk (some s.id) fileId bytes).2.session = _
      rw [hw]
  | cancelSession id =>
    left
    change (r.cancelForPeer id).2.session = r.session
    rcases hc : r.cancelForPeer id with ⟨e | c, r'⟩
    · rw [cancelForPeer_error hc]
    · simp [perform, hc, Exchange.session?, Except.map] at h

/-- As long as a session lasts, its records move on. -/
theorem advances_after {events : List Event} (hl : r.Lasts events)
    (hfile : r.file? fileId = some t) :
    ∃ t', (r.after events).file? fileId = some t' ∧ t.Advances t' := by
  induction events generalizing r t with
  | nil => exact ⟨t, hfile, .refl t⟩
  | cons e rest ih =>
    cases e with
    | changed d => exact ih (r := r.on d) hl hfile
    | asked o =>
      obtain ⟨hfirst, hrest⟩ := hl.asked
      obtain ⟨u, hu, htu⟩ : ∃ u, (r.perform o).2.file? fileId = some u ∧ t.Advances u := by
        rcases r.perform_lasting o hfirst with hsame | ⟨s, id, v, bytes, result, v', d, hs, hv, -,
          hreceive, hs'⟩
        · exact ⟨t, by rw [file?, hsame]; exact hfile, .refl t⟩
        · rw [file?_eq hs] at hfile
          rw [file?_eq hs']
          by_cases hid : fileId = id
          · rw [hid, hv] at hfile
            cases hfile
            rw [hid]
            exact ⟨v', file?_written hv hreceive, Transfer.receive_advances hreceive⟩
          · have hne : fileId ≠ v'.fileId := by
              rw [(Transfer.receive_paths hreceive).1, Session.fileId_of_file? hv]
              exact hid
            exact ⟨t, by rw [Session.file?_update_ne s hne]; exact hfile, .refl t⟩
      obtain ⟨t', ht', hut⟩ := ih hrest hu
      exact ⟨t', ht', htu.trans hut⟩

/-! ### Every history -/

/-- What came of the last chunk that was appended is told by how it has gone with the file. -/
theorem lastLanding_eq (r : Receiver) (fileId : String) (soFar : Course) (events : List Event) :
    lastLanding fileId r (soFar.last Arrival.landing?) events =
      (course fileId r soFar events).last Arrival.landing? := by
  induction events generalizing r soFar with
  | nil => rfl
  | cons e rest ih =>
    have hfirst : r.landed fileId (soFar.last Arrival.landing?) e =
        (r.follow fileId soFar e).last Arrival.landing? := by
      cases e with
      | changed d => rfl
      | asked o =>
        cases o with
        | openSession id manifest =>
          dsimp only [landed, follow]
          split <;> rfl
        | writeChunk sessionId id bytes =>
          dsimp only [landed, follow, landing?, arrival?]
          rw [Course.last_add]
          split
          · rw [Option.bind_map]
            rfl
          · rfl
        | pair pin remote => exact (Course.last_add _ _ none).symm
        | cancelSession id => exact (Course.last_add _ _ none).symm
    rw [lastLanding, hfirst, ih]
    rfl

/-- **In every state a record stands** as what came of the last chunk says. -/
theorem standing_after (hidle : start.session = none) (events : List Event)
    (ht : (start.after events).file? fileId = some t) :
    t.Standing (lastLanding fileId start none events) := by
  have hlast := lastLanding_eq start fileId {} events
  rw [show Course.last Arrival.landing? {} = none from rfl] at hlast
  rw [hlast]
  refine course_induction (R := fun c t => t.Standing (c.last Arrival.landing?))
    (fun _ _ _ _ _ => ⟨rfl, rfl⟩) (fun c a result t' d hstanding hreceive => ?_) hidle events t ht
  rw [Course.last_add]
  exact Transfer.receive_standing hstanding hreceive

/-- **Records move one way.** Whatever happens to a receiver, whether calls on its disk fail or not:
as long as a session lasts, no file of it loses what has been counted, and the record of a completed
one does not change any more. A file is completed only with all its bytes; if it has them and is not
completed, then completing it failed after the last chunk that was appended. And the answer to a
chunk tells how the record stands after it. -/
theorem records_move_one_way (hidle : start.session = none) (events : List Event)
    (fileId : String) :
    (∀ t, (start.after events).file? fileId = some t →
      (∀ later, (start.after events).Lasts later →
        ∃ t', ((start.after events).after later).file? fileId = some t' ∧
          t.received ≤ t'.received ∧ (t.completed = true → t' = t)) ∧
      (t.completed = true → t.declaredSize.toNat ≤ t.received) ∧
      (t.completed = false → t.declaredSize.toNat ≤ t.received → 0 < t.declaredSize.toNat →
        ∃ e, lastLanding fileId start none events = some (.finished (.failed e)))) ∧
    ∀ id bytes c r', (start.after events).writeChunk id fileId bytes = (.ok c, r') →
      ∃ t', r'.file? fileId = some t' ∧ c.Tells t' := by
  refine ⟨fun t ht => ⟨fun later hlasts => ?_, (standing_after hidle events ht).full⟩,
    fun id bytes c r' hw => ?_⟩
  · obtain ⟨t', ht', hadvances⟩ := advances_after hlasts ht
    exact ⟨t', ht', hadvances.received, hadvances.settled⟩
  · obtain ⟨s, t, result, t', d, hs, -, hfile, hreceive, rfl, rfl⟩ := exists_of_writeChunk hw
    exact ⟨t', file?_written hfile hreceive, Transfer.receive_tells hreceive s.id⟩

/-- A receiver on an empty disk, on which the file that comes first cannot be moved at once. -/
def stuckExample : Receiver :=
  unpairedExample.on
    { entries := ∅, faults := [none, none, none, none, none, some ⟨.busy, 0⟩] }

/-- A file of one byte, which cannot be completed. -/
def stuckEvents : List Event :=
  [.asked (.pair "123456" { id := "d", nickname := "n" }),
    .asked (.openSession "s" [("f", { name := some "x", size := 1 })]),
    .asked (.writeChunk (some "s") "f" ⟨#[7]⟩)]

/-- An empty chunk, with which it can, and one for which it is too late. -/
def retryEvents : List Event :=
  [.asked (.writeChunk (some "s") "f" .empty), .asked (.writeChunk (some "s") "f" ⟨#[8]⟩)]

theorem stuck_then_completed : stuckExample.session = none ∧
    ∃ t, (stuckExample.after stuckEvents).file? "f" = some t ∧ t.received = 1 ∧
      t.completed = false ∧ (stuckExample.after stuckEvents).Lasts retryEvents ∧
      (∃ e, lastLanding "f" stuckExample none stuckEvents = some (.finished (.failed e))) ∧
      (∃ t', ((stuckExample.after stuckEvents).after retryEvents).file? "f" = some t' ∧
        t.received ≤ t'.received ∧ t'.completed = true) ∧
      ∃ c r', (stuckExample.after stuckEvents).writeChunk (some "s") "f" .empty = (.ok c, r') ∧
        ∃ t', r'.file? "f" = some t' ∧ c.Tells t' := by
  have hidle : stuckExample.session = none := rfl
  have hfile : (stuckExample.after stuckEvents).file? "f" =
      some { Transfer.ofOffer "f" { name := some "x", size := 1 } ⟨"out"⟩ [] with
        received := 1 } := by
    decide +kernel
  have hlasts : (stuckExample.after stuckEvents).Lasts retryEvents := by decide +kernel
  have hdone : (((stuckExample.after stuckEvents).after retryEvents).file? "f").map
      (·.completed) = some true := by
    decide +kernel
  have hchunk : ((stuckExample.after stuckEvents).writeChunk (some "s") "f" .empty).1.toOption =
      some ⟨"s", "f", .completed, 1, none⟩ := by
    decide +kernel
  obtain ⟨hrecord, hreport⟩ := records_move_one_way hidle stuckEvents "f"
  obtain ⟨hlater, -, hstuck⟩ := hrecord _ hfile
  refine ⟨hidle, _, hfile, rfl, rfl, hlasts, hstuck rfl (by decide) (by decide), ?_, ?_⟩
  · obtain ⟨t', ht', hcount, -⟩ := hlater retryEvents hlasts
    rw [ht'] at hdone
    exact ⟨t', ht', hcount, Option.some.inj hdone⟩
  · have hok := served_ok hchunk
    exact ⟨_, _, hok, hreport _ _ _ _ hok⟩

end Receiver
end FileReceiver
