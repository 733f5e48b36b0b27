/-
# How it goes with a file

The record of a file is made when a session is opened, and from then on only
the chunks that come for the file change it. So two things tell what becomes
of it, however the file is called and whatever else happens: the manifest of
the session that was opened last, and the chunks that have come since, each
with the record and the disk that it met (`Course`). What is so of a file that
is offered, and is kept by every chunk, is so of each file in every state
(`course_induction`).

Key definitions: `Arrival`, `Course`, `Receiver.arrival?`, `Receiver.course`.
Key theorems: `Receiver.file?_writeChunk`, `Receiver.Followed.meet`,
`Receiver.course_induction`.
-/
import FileReceiver.Proofs.Lengths
import FileReceiver.Proofs.Scoping

namespace FileReceiver

/-- A chunk that comes for a file, with the record and the disk that it meets. -/
structure Arrival where
  record : Transfer
  bytes : ByteArray
  disk : Disk

/-- How it has gone with a file: the manifest of the session that was opened last, and the chunks
that have come for the file since. -/
structure Course where
  manifest : Manifest := []
  arrivals : List Arrival := []

namespace Course

/-- A course that goes on with the chunk that has come, if one has. -/
def add (c : Course) (a : Option Arrival) : Course :=
  { c with arrivals := c.arrivals ++ a.toList }

/-- What the last chunk says that says anything. -/
def last {α : Type} (f : Arrival → Option α) (c : Course) : Option α :=
  (c.arrivals.filterMap f).getLast?

@[simp]
theorem add_none (c : Course) : c.add none = c := by
  rw [add, Option.toList_none, List.append_nil]

theorem last_add {α : Type} (f : Arrival → Option α) (c : Course) (a : Option Arrival) :
    (c.add a).last f = (a.bind f).or (c.last f) := by
  unfold last add
  rw [List.filterMap_append, List.getLast?_append]
  cases a with
  | none => rfl
  | some a => cases h : f a <;> simp [h]

end Course

namespace Receiver

variable {r r' start : Receiver} {fileId : String} {soFar : Course} {t t' : Transfer}

/-- The chunk that an operation brings for a file of the current session. -/
def arrival? (r : Receiver) (fileId : String) : Operation → Option Arrival
  | .writeChunk sessionId id bytes =>
    if id = fileId ∧ sessionId = r.sessionId? then
      (r.file? fileId).map fun t => ⟨t, bytes, r.disk⟩
    else none
  | _ => none

/-- How it has gone with a file after one more event. -/
def follow (r : Receiver) (fileId : String) (soFar : Course) : Event → Course
  | .asked (.openSession id manifest) =>
    if (r.openForPeer id manifest).1.isOk then { manifest } else soFar
  | .asked o => soFar.add (r.arrival? fileId o)
  | .changed _ => soFar

/-- How it has gone with a file after a history. -/
def course (fileId : String) : Receiver → Course → List Event → Course
  | _, soFar, [] => soFar
  | r, soFar, e :: rest => course fileId (r.meet e) (r.follow fileId soFar e) rest

/-! ### What changes a record -/

/-- A chunk that is not refused is received by the file that it names. -/
theorem exists_of_writeChunk {id : Option String} {bytes : ByteArray} {c : ChunkReport}
    (h : r.writeChunk id fileId bytes = (.ok c, r')) :
    ∃ s t result t' d, r.session = some s ∧ id = some s.id ∧ s.file? fileId = some t ∧
      t.receive bytes r.disk = (result, t', d) ∧ c = t'.report s.id result ∧
      r' = { r with session := some (s.update t'), disk := d } := by
  unfold writeChunk at h
  split at h
  · cases h
  rename_i s hs
  split at h
  · cases h
  rename_i hid
  split at h
  · cases h
  rename_i t ht
  cases h
  exact ⟨s, t, _, _, _, hs, Decidable.not_not.mp hid, ht, rfl, rfl, rfl⟩

/-- The record that a chunk leaves is the record of its file. -/
theorem file?_written {s : Session} {bytes : ByteArray} {d d' : Disk} {result : ChunkResult}
    (hfile : s.file? fileId = some t) (h : t.receive bytes d = (result, t', d')) :
    (s.update t').file? fileId = some t' := by
  have hid := Session.fileId_of_file? hfile
  obtain ⟨hsame, -⟩ := Transfer.receive_paths h
  rw [← hid] at hfile ⊢
  exact Session.file?_update_self hsame hfile

/-- Pairing leaves the session as it is. -/
theorem pair_session (r : Receiver) (pin : String) (remote : Device) :
    (r.pair pin remote).2.session = r.session := by
  rcases hp : r.pair pin remote with ⟨e | p, r'⟩
  · rw [pair_error hp]
  · rw [(pair_ok hp).2]

/-- The record of a file after a chunk is the one before, or what the chunk made of it. -/
theorem file?_writeChunk {sessionId : Option String} {id : String} {bytes : ByteArray}
    (h : (r.writeChunk sessionId id bytes).2.file? fileId = some t') :
    r.arrival? fileId (.writeChunk sessionId id bytes) = none ∧
        r.file? fileId = some t' ∨
      ∃ a result d, r.arrival? fileId (.writeChunk sessionId id bytes) = some a ∧
        r.file? fileId = some a.record ∧ a.record.receive a.bytes a.disk = (result, t', d) := by
  dsimp only [arrival?]
  rcases hw : r.writeChunk sessionId id bytes with ⟨e | c, r'⟩
  · -- a chunk that is refused is of no file
    rw [hw, writeChunk_error hw] at h
    change r.file? fileId = some t' at h
    refine Or.inl ⟨?_, h⟩
    rw [if_neg]
    rintro ⟨rfl, rfl⟩
    obtain ⟨s, hs, hfile⟩ := Option.bind_eq_some_iff.mp h
    simp [writeChunk, sessionId?, hs, hfile] at hw
  obtain ⟨s, t, result, u, d, hs, rfl, hfile, hreceive, -, rfl⟩ := exists_of_writeChunk hw
  rw [hw] at h
  change (s.update u).file? fileId = some t' at h
  rw [file?_eq hs]
  by_cases hsame : id = fileId
  · subst hsame
    rw [file?_written hfile hreceive] at h
    cases h
    have hcurrent : some s.id = r.sessionId? := by rw [sessionId?, hs, Option.map_some]
    rw [if_pos ⟨rfl, hcurrent⟩, hfile]
    exact Or.inr ⟨_, result, d, rfl, rfl, hreceive⟩
  · rw [if_neg fun hboth => hsame hboth.1]
    have hne : fileId ≠ u.fileId := by
      rw [(Transfer.receive_paths hreceive).1, Session.fileId_of_file? hfile]
      exact Ne.symm hsame
    rw [Session.file?_update_ne s hne] at h
    exact Or.inl ⟨rfl, h⟩

/-- The files of a session that is opened are made of what its manifest offers. -/
theorem file?_openForPeer {id : String} {manifest : Manifest} {opened : Opened}
    (ho : r.openForPeer id manifest = (.ok opened, r')) (h : r'.file? fileId = some t') :
    ∃ offer claims, (fileId, offer) ∈ manifest ∧
      t' = Transfer.ofOffer fileId offer r.outputFolder claims := by
  obtain ⟨-, hsession, -⟩ := openForPeer_ok ho
  rw [file?_eq hsession] at h
  obtain ⟨id', offer, claims, hmem, rfl⟩ := Admission.exists_ofOffer r.policy r.outputFolder
    manifest t' (List.mem_reverse.mp (Session.mem_of_file? h))
  have hid : id' = fileId := Session.fileId_of_file? h
  subst hid
  exact ⟨offer, claims, hmem, rfl⟩

/-! ### Every history -/

/-- Something is so of a file of the current session and how it has gone with it. -/
def Followed (R : Course → Transfer → Prop) (r : Receiver) (fileId : String) (soFar : Course) :
    Prop :=
  ∀ t, r.file? fileId = some t → R soFar t

variable {R : Course → Transfer → Prop}

/-- What brings a file no chunk leaves its record, and how it has gone with it. -/
theorem Followed.of_none (h : Followed R r fileId soFar) {a : Option Arrival} (hnone : a = none)
    (ht : r.file? fileId = some t) : R (soFar.add a) t := by
  rw [hnone, Course.add_none]
  exact h t ht

/-- What is so of a file that is offered, and is kept by every chunk, every event keeps. -/
theorem Followed.meet
    (hoffered : ∀ manifest offer folder claims, (fileId, offer) ∈ manifest →
      R { manifest } (.ofOffer fileId offer folder claims))
    (hchunk : ∀ c (a : Arrival) result t' d, R c a.record →
      a.record.receive a.bytes a.disk = (result, t', d) → R (c.add a) t')
    (h : Followed R r fileId soFar) (e : Event) :
    Followed R (r.meet e) fileId (r.follow fileId soFar e) := by
  intro t ht
  cases e with
  | changed d => exact h t ht
  | asked o =>
    cases o with
    | pair pin remote =>
      refine h.of_none rfl ?_
      rwa [file?, ← r.pair_session pin remote]
    | openSession id manifest =>
      change (r.openForPeer id manifest).2.file? fileId = some t at ht
      dsimp only [follow]
      rcases ho : r.openForPeer id manifest with ⟨e | opened, r'⟩
      · rw [ho] at ht
        obtain ⟨-, d, rfl, -⟩ := openForPeer_error ho
        exact h t ht
      · rw [ho] at ht
        obtain ⟨offer, claims, hmem, rfl⟩ := file?_openForPeer ho ht
        exact hoffered manifest offer r.outputFolder claims hmem
    | writeChunk sessionId id bytes =>
      rcases file?_writeChunk ht with ⟨hnone, ht⟩ | ⟨a, result, d, ha, hrecord, hreceive⟩
      · exact h.of_none hnone ht
      · dsimp only [follow]
        rw [ha]
        exact hchunk soFar a result t d (h _ hrecord) hreceive
    | cancelSession id =>
      change (r.cancelForPeer id).2.file? fileId = some t at ht
      rcases hc : r.cancelForPeer id with ⟨e | c, r'⟩
      · rw [hc, cancelForPeer_error hc] at ht
        exact h.of_none rfl ht
      · rw [hc, file?, (cancelForPeer_ok hc).2] at ht
        cases ht

/-- **What is so of a file that is offered, and is kept by every chunk**, is so of each file of the
current session and how it has gone with it, in every state that an idle receiver reaches. -/
theorem course_induction
    (hoffered : ∀ manifest offer folder claims, (fileId, offer) ∈ manifest →
      R { manifest } (.ofOffer fileId offer folder claims))
    (hchunk : ∀ c (a : Arrival) result t' d, R c a.record →
      a.record.receive a.bytes a.disk = (result, t', d) → R (c.add a) t')
    (hidle : start.session = none) (events : List Event) :
    Followed R (start.after events) fileId (course fileId start {} events) := by
  have hrun : ∀ (events : List Event) {r : Receiver} {soFar : Course},
      Followed R r fileId soFar →
        Followed R (r.after events) fileId (course fileId r soFar events) := by
    intro events
    induction events with
    | nil => exact fun h => h
    | cons e rest ih => exact fun h => ih (h.meet hoffered hchunk e)
  refine hrun events fun t ht => ?_
  rw [file?, hidle, Option.bind_none] at ht
  cases ht

end Receiver
end FileReceiver
