/-
# When a file has a verdict on its hash

Once the bytes of a file have come, its content is compared with the hash that
was announced, and then the file is put in its place. The record has its
verdict from the comparison on (`Transfer.Judged`), so it also has one if the
file could not be put in its place: that is when an incomplete file has a
verdict, and the answers that say so tell of a failure (`verdicts_compared`).
Until its bytes have come, and if no hash was announced, a file has none; once
it is complete, it has one just if a hash was announced.

Key definitions: `Transfer.comparison?`, `Transfer.Judged`.
Key theorems: `Transfer.finish_compares`, `Transfer.Judged.receive`,
`Receiver.judged_after`, `Receiver.verdicts_compared`.
-/
import FileReceiver.Proofs.Records

namespace FileReceiver
namespace Transfer

variable {t t' : Transfer} {d d' : Disk} {bytes : ByteArray} {result : ChunkResult}
  {last : Option Bool}

/-- Whether what is staged has the hash that was announced, if one was and it can be read. -/
def compare? (t : Transfer) (d : Disk) : Option Bool :=
  t.hash.bind fun announced =>
    match (d.read t.stagingPath).1 with
    | .ok content => some (FileHash.agree announced (FileHash.ofContent content))
    | .error _ => none

/-- What a chunk leads to comparing: it is appended, it is the last one, and then the file is
compared. -/
def comparison? (t : Transfer) (bytes : ByteArray) (d : Disk) : Option Bool :=
  if t.completed then none
  else
    match t.append bytes d with
    | (.error _, _) => none
    | (.ok (), d) =>
      if t.received + bytes.size < t.declaredSize.toNat then none else t.compare? d

/-- A record has the verdict of the last comparison there was. There is none without a hash, nor
before the bytes have come, and there is one of a completed file with a hash. -/
structure Judged (t : Transfer) (last : Option Bool) : Prop where
  verdict : t.hashVerified = last
  announced : t.hashVerified.isSome → t.hash.isSome
  full : t.hashVerified.isSome → t.declaredSize.toNat ≤ t.received
  settled : t.completed = true → t.hash.isSome → t.hashVerified.isSome

/-! ### One record -/

theorem compare?_isSome (h : (t.compare? d).isSome) : t.hash.isSome := by
  unfold compare? at h
  cases hash : t.hash with
  | none => simp [hash] at h
  | some announced => rfl

/-- Verifying compares what is staged, or fails. -/
theorem verify_compares {res : Except SystemError Transfer} (h : t.verify d = (res, d')) :
    (∃ e, res = .error e ∧ t.compare? d = none) ∨
      res = .ok { t with hashVerified := (t.compare? d).or t.hashVerified } ∧
        (t.hash.isSome → (t.compare? d).isSome) := by
  unfold verify at h
  split at h
  · rename_i hash
    have hnone : t.compare? d = none := by rw [compare?, hash, Option.bind_none]
    cases h
    rw [hnone, Option.none_or]
    exact Or.inr ⟨rfl, fun hsome => by simp [hash] at hsome⟩
  rename_i announced hash
  rcases hr : d.read t.stagingPath with ⟨e | content, read⟩
  · rw [hr] at h
    cases h
    exact Or.inl ⟨e, rfl, by rw [compare?, hash, Option.bind_some, hr]⟩
  · have hsome : t.compare? d = some (FileHash.agree announced (FileHash.ofContent content)) := by
      rw [compare?, hash, Option.bind_some, hr]
    rw [hr] at h
    cases h
    rw [hsome]
    exact Or.inr ⟨rfl, fun _ => rfl⟩

/-- **Completing compares first.** The verdict stays, whether or not the file then gets its place. -/
theorem finish_compares (h : t.finish d = (result, t', d')) :
    t'.hashVerified = (t.compare? d).or t.hashVerified ∧
      (t'.completed = true → t.completed = false → t.hash.isSome → (t.compare? d).isSome) := by
  unfold finish at h
  rcases hv : t.verify d with ⟨res, read⟩
  rw [hv] at h
  rcases verify_compares hv with ⟨e, rfl, hnone⟩ | ⟨rfl, hsome⟩
  · cases h
    rw [hnone]
    exact ⟨rfl, fun hdone hopen => by simp [hopen] at hdone⟩
  · dsimp only at h
    split at h
    all_goals
      cases h
      exact ⟨rfl, fun _ _ => hsome⟩

/-- **A chunk keeps the verdict that there is**, unless it leads to another comparison. -/
theorem Judged.receive (hj : t.Judged last) (h : t.receive bytes d = (result, t', d')) :
    t'.Judged ((t.comparison? bytes d).or last) := by
  have hadvances := receive_advances h
  unfold comparison?
  rcases receive_cases h with ⟨hdone, -, rfl, -⟩ | ⟨hopen, hcases⟩
  · rw [if_pos hdone]
    exact hj
  rw [if_neg (by simp [hopen])]
  rcases hcases with ⟨e, happend, -, rfl⟩ | ⟨appended, happend, hcases⟩
  · rw [happend]
    exact hj
  rw [happend]
  dsimp only
  rcases hcases with ⟨hmore, -, rfl, -⟩ | ⟨hfull, hfinish⟩
  · rw [if_pos hmore]
    exact ⟨hj.verdict, hj.announced, fun hsome => Nat.le_trans (hj.full hsome) hadvances.received,
      fun hdone => by simp [counting, hopen] at hdone⟩
  rw [if_neg (Nat.not_lt.mpr hfull)]
  obtain ⟨hverdict, hsettled⟩ := finish_compares hfinish
  obtain ⟨hcount, hsize, -⟩ := finish_result hfinish
  obtain ⟨completed, v, hkeeps⟩ := finish_keeps hfinish
  have hhash : t'.hash = t.hash := by rw [hkeeps]; rfl
  change t'.hashVerified = (t.compare? appended).or t.hashVerified at hverdict
  change _ → _ → t.hash.isSome → (t.compare? appended).isSome at hsettled
  refine ⟨hverdict.trans (by rw [hj.verdict]), fun hsome => ?_, fun _ => ?_, fun hdone hash => ?_⟩
  · rw [hverdict, Option.isSome_or, Bool.or_eq_true] at hsome
    rw [hhash]
    exact hsome.elim compare?_isSome hj.announced
  · rw [hcount, hsize]
    exact hfull
  · rw [hhash] at hash
    rw [hverdict, Option.isSome_or, hsettled hdone hopen hash, Bool.true_or]

/-- A file that is offered has no verdict. -/
theorem judged_ofOffer (fileId : String) (offer : FileOffer) (folder : Path) (claims : Claims) :
    (ofOffer fileId offer folder claims).Judged none :=
  ⟨rfl, nofun, nofun, nofun⟩

end Transfer

/-- What a chunk that has come leads to comparing. -/
def Arrival.comparison? (a : Arrival) : Option Bool :=
  a.record.comparison? a.bytes a.disk

namespace Receiver

variable {start r' : Receiver} {fileId : String} {t : Transfer}

/-! ### Every history -/

/-- **In every state a file has the verdict of the last comparison** since its session was
opened. -/
theorem judged_after (hidle : start.session = none) (events : List Event)
    (ht : (start.after events).file? fileId = some t) :
    t.Judged ((course fileId start {} events).last Arrival.comparison?) := by
  refine course_induction (R := fun c t => t.Judged (c.last Arrival.comparison?))
    (fun _ _ _ _ _ => Transfer.judged_ofOffer _ _ _ _) (fun c a result t' d hj hreceive => ?_)
    hidle events t ht
  rw [Course.last_add]
  exact hj.receive hreceive

/-- In every state a file has the hash that its session's manifest announces, unless that is
blank. -/
theorem hash_after (hidle : start.session = none) (events : List Event)
    (ht : (start.after events).file? fileId = some t) :
    ∃ offer, (fileId, offer) ∈ (course fileId start {} events).manifest ∧
      t.hash = offer.hash.filter fun h => !Text.isBlankText h := by
  refine course_induction (R := fun c t => ∃ offer, (fileId, offer) ∈ c.manifest ∧
      t.hash = offer.hash.filter fun h => !Text.isBlankText h)
    (fun _ offer _ _ hmem => ⟨offer, hmem, rfl⟩) (fun c a result t' d h hreceive => ?_)
    hidle events t ht
  obtain ⟨offer, hmem, hhash⟩ := h
  obtain ⟨count, completed, v, rfl⟩ := Transfer.receive_keeps hreceive
  exact ⟨offer, hmem, hhash⟩

/-- **A verdict tells of a comparison.** Whatever happens to a receiver, and whatever becomes of its
disk, each file of the current session has the hash that was announced for it, unless that was
blank, and the verdict of the last comparison with it. A completed file has a verdict just if a hash
was announced. So the files with a verdict are the completed ones whose hash was announced, with one
exception: those that have been compared and then did not get their place. The answer to a chunk
gives no verdict while more is wanted; if it tells of a failure, it gives the last one there was. -/
theorem verdicts_compared (hidle : start.session = none) (events : List Event)
    (ht : (start.after events).file? fileId = some t) :
    (∃ offer, (fileId, offer) ∈ (course fileId start {} events).manifest ∧
      t.hash = offer.hash.filter fun h => !Text.isBlankText h) ∧
    t.hashVerified = (course fileId start {} events).last Arrival.comparison? ∧
    (t.completed = true → (t.hashVerified.isSome ↔ t.hash.isSome)) ∧
    ((t.hashVerified.isSome ↔ t.completed = true ∧ t.hash.isSome) ↔
      t.completed = true ∨ (course fileId start {} events).last Arrival.comparison? = none) ∧
    ∀ id bytes c r', (start.after events).writeChunk id fileId bytes = (.ok c, r') →
      (c.result.status = .receiving → c.hashVerified = none) ∧
      (c.result.status = .completed → (c.hashVerified.isSome ↔ t.hash.isSome)) ∧
      (c.result.status = .failed → c.hashVerified =
        (t.comparison? bytes (start.after events).disk).or t.hashVerified) := by
  have hj := judged_after hidle events ht
  refine ⟨hash_after hidle events ht, hj.verdict, fun hdone => ⟨hj.announced, hj.settled hdone⟩,
    ?_, fun id bytes c r' hw => ?_⟩
  · rw [← hj.verdict]
    constructor
    · intro hclaim
      rcases h : t.hashVerified with _ | v
      · exact Or.inr rfl
      · exact Or.inl (hclaim.mp (by rw [h]; rfl)).1
    · rintro (hdone | hnone)
      · exact ⟨fun hsome => ⟨hdone, hj.announced hsome⟩, fun hboth => hj.settled hdone hboth.2⟩
      · exact ⟨fun hsome => by simp [hnone] at hsome, fun hboth => hj.settled hboth.1 hboth.2⟩
  · obtain ⟨s, u, result, u', d, hs, -, hfile, hreceive, rfl, rfl⟩ := exists_of_writeChunk hw
    rw [file?_eq hs, hfile] at ht
    cases ht
    have hj' := hj.receive hreceive
    have htells := Transfer.receive_tells hreceive s.id
    have hhash : u'.hash = t.hash := by
      obtain ⟨count, completed, v, rfl⟩ := Transfer.receive_keeps hreceive
      rfl
    refine ⟨fun hstatus => ?_, fun hstatus => ?_, fun _ => ?_⟩
    · obtain ⟨-, hmore⟩ := htells.receiving hstatus
      rw [htells.hashVerified, ← Option.not_isSome_iff_eq_none]
      exact fun hsome => absurd (hj'.full hsome) (Nat.not_le.mpr hmore)
    · rw [htells.hashVerified, ← hhash]
      exact ⟨hj'.announced, hj'.settled (htells.completed.mp hstatus)⟩
    · rw [htells.hashVerified, hj'.verdict, hj.verdict]

/-- A folder stands where a file belongs. -/
def occupiedDisk : Disk :=
  ((Disk.mk ∅ [] []).put ["out"] .folder).put ["out", "x"] .folder

/-- A file of one byte whose hash is announced, sent while a folder stands in its place. -/
def occupiedEvents : List Event :=
  [.asked (.pair "123456" { id := "d", nickname := "n" }),
    .asked (.openSession "s" [("f", { name := some "x", size := 1, hash := some "0" })]),
    .changed occupiedDisk, .asked (.writeChunk (some "s") "f" ⟨#[7]⟩)]

theorem verdict_of_occupied : unpairedExample.session = none ∧
    ∃ t, (unpairedExample.after occupiedEvents).file? "f" = some t ∧ t.completed = false ∧
      t.hash = some "0" ∧
      ((course "f" unpairedExample {} occupiedEvents).last Arrival.comparison?).isSome ∧
      ¬ (t.hashVerified.isSome ↔ t.completed = true ∧ t.hash.isSome) := by
  have hidle : unpairedExample.session = none := rfl
  have hstate : ((unpairedExample.after occupiedEvents).file? "f").map
      (fun t => (t.completed, t.hash, t.hashVerified.isSome)) = some (false, some "0", true) := by
    decide +kernel
  obtain ⟨t, ht, hfields⟩ := Option.map_eq_some_iff.mp hstate
  obtain ⟨hopen, hhash, hsome⟩ : t.completed = false ∧ t.hash = some "0" ∧
      t.hashVerified.isSome = true := by simpa using hfields
  obtain ⟨-, hverdict, -, hexception, -⟩ := verdicts_compared hidle occupiedEvents ht
  rw [hverdict] at hsome
  refine ⟨hidle, t, ht, hopen, hhash, hsome, fun hclaim => ?_⟩
  rcases hexception.mp hclaim with hdone | hnone
  · simp [hopen] at hdone
  · simp [hnone] at hsome

theorem incomplete_with_verdict :
    ((unpairedExample.after occupiedEvents).file? "f").map
        (fun t => (t.completed, t.hashVerified.isSome)) = some (false, true) ∧
      ((unpairedExample.after (occupiedEvents.take 3)).writeChunk (some "s") "f"
        ⟨#[7]⟩).1.toOption.map (fun c => (c.result.status, c.hashVerified.isSome)) =
          some (.failed, true) := by
  decide +kernel

end Receiver
end FileReceiver
