/-
# Delivery

The chunks of a file are put together at its final path. With nothing left to
fail, and room for a file at both paths, every chunk is counted until as many
bytes as declared have come; the chunk with which they have is answered by
`completed`, and those after it change nothing. What stood at the staging path
is discarded by the first chunk, and what stood at the final path by the last.

Key definitions: `joined`, `Transfer.receiveAll`, `Transfer.reports`,
`Transfer.Fills`, `Transfer.Underway`.
Key theorems: `Transfer.Underway.receive`, `Transfer.delivers`.
-/
import FileReceiver.Proofs.Receiving

namespace FileReceiver

/-- Chunks behind each other. -/
def joined (chunks : List ByteArray) : ByteArray := chunks.foldl (· ++ ·) .empty

theorem joined_concat (chunks : List ByteArray) (bytes : ByteArray) :
    joined (chunks ++ [bytes]) = joined chunks ++ bytes := by
  simp [joined]

/-- A file can stand at a path: it leads to an entry that is neither a folder nor a link. -/
def Disk.CanHold (d : Disk) (p : Path) : Prop :=
  ∃ loc, d.Reaches p loc ∧ d.Ordinary loc

namespace Transfer

open Disk (Edits Aims Leads Ordinary)

/-- A transfer and the disk after chunks that were given one after the other. -/
def receiveAll (chunks : List ByteArray) (s : Transfer × Disk) : Transfer × Disk :=
  chunks.foldl (fun s bytes => (s.1.receive bytes s.2).2) s

/-- The reports about chunks that are given one after the other. -/
def reports (sessionId : String) : List ByteArray → Transfer × Disk → List ChunkReport
  | [], _ => []
  | bytes :: rest, s =>
    let (result, s) := s.1.receive bytes s.2
    s.1.report sessionId result :: reports sessionId rest s

/-- As many bytes as declared have come with the first `k` chunks. -/
def Fills (t : Transfer) (chunks : List ByteArray) (k : Nat) : Prop :=
  1 ≤ k ∧ k ≤ chunks.length ∧ t.declaredSize.toNat ≤ (joined (chunks.take k)).size

instance (t : Transfer) (chunks : List ByteArray) (k : Nat) : Decidable (t.Fills chunks k) :=
  inferInstanceAs (Decidable (_ ∧ _ ∧ _))

/-- With the `k`-th chunk, and none before it, as many bytes as declared have come. -/
def FillsFirst (t : Transfer) (chunks : List ByteArray) (k : Nat) : Prop :=
  t.Fills chunks k ∧ ∀ j, j < k → ¬t.Fills chunks j

variable {t t' : Transfer} {d d' : Disk} {s : Transfer × Disk} {chunks : List ByteArray}
  {sessionId name partName : String} {folder : Location} {bytes : ByteArray}

theorem take_concat {n : Nat} (h : n < chunks.length) :
    chunks.take (n + 1) = chunks.take n ++ [chunks[n]] := by
  rw [List.take_add_one, List.getElem?_eq_getElem h, Option.toList_some]

theorem receiveAll_concat (chunks : List ByteArray) (bytes : ByteArray) (s : Transfer × Disk) :
    receiveAll (chunks ++ [bytes]) s =
      ((receiveAll chunks s).1.receive bytes (receiveAll chunks s).2).2 := by
  simp [receiveAll]

/-- The `n`-th report is about the `n`-th chunk, as the chunks before it leave the transfer. -/
theorem getElem?_reports (chunks : List ByteArray) (s : Transfer × Disk) (n : Nat)
    (h : n < chunks.length) :
    (reports sessionId chunks s)[n]? =
      some ((receiveAll (chunks.take (n + 1)) s).1.report sessionId
        ((receiveAll (chunks.take n) s).1.receive chunks[n]
          (receiveAll (chunks.take n) s).2).1) := by
  induction chunks generalizing s n with
  | nil => cases h
  | cons bytes rest ih =>
    cases n with
    | zero => rfl
    | succ n => exact ih _ n (Nat.lt_of_succ_lt_succ h)

/-! ### After the last chunk -/

theorem receiveAll_completed (h : s.1.completed = true) (chunks : List ByteArray) :
    receiveAll chunks s = s := by
  induction chunks with
  | nil => rfl
  | cons bytes rest ih =>
    rw [receiveAll, List.foldl_cons, receive_completed h]
    exact ih

/-- Nothing changes from a chunk on after which the transfer is complete. -/
theorem receiveAll_take {k n : Nat} (h : (receiveAll (chunks.take k) s).1.completed = true)
    (hkn : k ≤ n) : receiveAll (chunks.take n) s = receiveAll (chunks.take k) s := by
  have hsplit : chunks.take n = chunks.take k ++ (chunks.take n).drop k := by
    calc chunks.take n = (chunks.take n).take k ++ (chunks.take n).drop k :=
          (List.take_append_drop k _).symm
      _ = _ := by rw [List.take_take, Nat.min_eq_left hkn]
  rw [hsplit, receiveAll, List.foldl_append]
  exact receiveAll_completed h _

/-! ### One chunk after the other -/

/-- A transfer that nothing has come of yet, on a disk on which nothing is left to fail, with room
for the staging file and the final file. -/
structure Ready (t : Transfer) (d : Disk) (folder : Location) (partName name : String) : Prop where
  counts : t.Counts d (folder ++ [partName]) .empty
  unverified : t.hashVerified = none
  quiet : d.faults = []
  placed : t.Placed d (folder ++ [partName]) (folder ++ [name])
  leadsStaging : d.Leads t.stagingPath folder partName
  leadsFinal : d.Leads t.finalPath folder name
  ordinaryStaging : d.Ordinary (folder ++ [partName])
  ordinaryFinal : d.Ordinary (folder ++ [name])

/-- After some chunks, which the staging file holds: nothing else has changed. -/
structure Underway (t : Transfer) (d : Disk) (staging : Location) (chunks : List ByteArray)
    (s : Transfer × Disk) : Prop where
  transfer : s.1 = t.counting (joined chunks).size
  counts : s.1.Counts s.2 staging (joined chunks)
  edits : d.Edits [staging] s.2
  staged : chunks ≠ [] → ∃ mode, s.2.get? staging = some (.file mode (joined chunks))

/-- The file stands at the final path, and its staging file is gone. -/
structure Delivered (t : Transfer) (d : Disk) (staging final : Location) (whole : ByteArray)
    (s : Transfer × Disk) : Prop where
  transfer : s.1 = { t.counting whole.size with
    hashVerified := t.verdict whole, completed := true }
  edits : d.Edits [staging, final] s.2
  gone : s.2.get? staging = none
  there : ∃ mode, s.2.entryAt? t.finalPath = some (.file mode whole)

theorem Ready.underway (h : t.Ready d folder partName name) :
    t.Underway d (folder ++ [partName]) [] (t, d) :=
  ⟨rfl, h.counts, (Edits.refl d).of_nil, fun hne => absurd rfl hne⟩

/-- **The next chunk.** It is counted, or it is the last one. -/
theorem Underway.receive (h : t.Ready d folder partName name)
    (hu : t.Underway d (folder ++ [partName]) chunks s) (bytes : ByteArray) :
    ((joined (chunks ++ [bytes])).size < t.declaredSize.toNat ∧
        (s.1.receive bytes s.2).1 = .taken ∧
        t.Underway d (folder ++ [partName]) (chunks ++ [bytes]) (s.1.receive bytes s.2).2) ∨
      (t.declaredSize.toNat ≤ (joined (chunks ++ [bytes])).size ∧
        (s.1.receive bytes s.2).1 = (s.1.receive bytes s.2).2.1.completion ∧
        t.Delivered d (folder ++ [partName]) (folder ++ [name]) (joined (chunks ++ [bytes]))
          (s.1.receive bytes s.2).2) := by
  obtain ⟨t₁, d₁⟩ := s
  obtain ⟨htransfer, hcounts, hedits, -⟩ := hu
  dsimp only at htransfer hcounts hedits ⊢
  subst htransfer
  have hp := (h.placed.edits hedits).counting (joined chunks).size
  have hok := receive_ok (hedits.quiet h.quiet) hcounts hp (h.leadsStaging.edits hedits)
    (h.leadsFinal.edits hedits) (h.ordinaryStaging.edits hedits) (h.ordinaryFinal.edits hedits)
    bytes
  have hzero : t.received = 0 := h.counts.received
  have htotal : (t.counting (joined chunks).size).received + bytes.size =
      (joined (chunks ++ [bytes])).size := by
    rw [joined_concat, ByteArray.size_append, counting, hzero, Nat.zero_add]
  have hcount : (t.counting (joined chunks).size).counting bytes.size =
      t.counting (joined (chunks ++ [bytes])).size := by
    rw [counting, htotal]
    simp [counting, hzero]
  rcases hr : (t.counting (joined chunks).size).receive bytes d₁ with ⟨result, t', d'⟩
  rw [hr] at hok
  cases receive_step hcounts hp hr with
  | refused e | unfinished e => exact absurd rfl (hok e)
  | taken _ _ hedits' hmore hcounts' hstaged =>
    rw [htotal] at hmore
    rw [← joined_concat] at hcounts' hstaged
    exact Or.inl ⟨hmore, rfl, hcount, hcounts', hedits.trans hedits', fun _ => hstaged⟩
  | finished _ _ _ hanswer _ hedits' hfull hstate hgone hthere =>
    rw [htotal] at hfull
    rw [hcount, ← joined_concat] at hstate
    rw [← joined_concat] at hthere
    exact Or.inr ⟨hfull, hanswer, hstate, (hedits.mono (by simp)).trans hedits', hgone, hthere⟩

/-- As long as the chunks do not fill the file, it is under way. -/
theorem Ready.underway_take (h : t.Ready d folder partName name) :
    ∀ n ≤ chunks.length, (∀ k ≤ n, ¬t.Fills chunks k) →
      t.Underway d (folder ++ [partName]) (chunks.take n) (receiveAll (chunks.take n) (t, d)) := by
  intro n
  induction n with
  | zero => exact fun _ _ => h.underway
  | succ n ih =>
    intro hle hopen
    have hu := ih (Nat.le_of_succ_le hle) fun k hk => hopen k (Nat.le_succ_of_le hk)
    rw [take_concat hle, receiveAll_concat]
    rcases hu.receive h chunks[n] with ⟨-, -, hnext⟩ | ⟨hfull, -⟩
    · exact hnext
    · rw [← take_concat hle] at hfull
      exact absurd ⟨Nat.succ_pos n, hle, hfull⟩ (hopen (n + 1) (Nat.le_refl _))

/-- What is reported about a chunk, and what it leaves, while the chunks do not fill the file. -/
theorem Ready.taken (h : t.Ready d folder partName name) (sessionId : String) {n : Nat}
    (hn : n < chunks.length)
    (hopen : ∀ k ≤ n + 1, ¬t.Fills chunks k) :
    (reports sessionId chunks (t, d))[n]? =
        some ⟨sessionId, t.fileId, .taken, (joined (chunks.take (n + 1))).size, none⟩ ∧
      t.Underway d (folder ++ [partName]) (chunks.take (n + 1))
        (receiveAll (chunks.take (n + 1)) (t, d)) := by
  have hu := h.underway_take n (Nat.le_of_lt hn) fun k hk => hopen k (Nat.le_succ_of_le hk)
  have hu' := h.underway_take (n + 1) hn hopen
  refine ⟨?_, hu'⟩
  have hzero : t.received = 0 := h.counts.received
  rw [getElem?_reports _ _ _ hn, report, hu'.transfer]
  rcases hu.receive h chunks[n] with ⟨-, htaken, -⟩ | ⟨hfull, -⟩
  · simp [htaken, counting, hzero, h.unverified]
  · rw [← take_concat hn] at hfull
    exact absurd ⟨Nat.succ_pos n, hn, hfull⟩ (hopen (n + 1) (Nat.le_refl _))

/-- What is reported about the chunk that fills the file, and what it leaves. -/
theorem Ready.delivered (h : t.Ready d folder partName name) (sessionId : String) {n : Nat}
    (hk : t.FillsFirst chunks (n + 1)) :
    (reports sessionId chunks (t, d))[n]? =
        some ⟨sessionId, t.fileId,
          if t.verdict (joined (chunks.take (n + 1))) = some false then .completedWithOtherHash
            else .completed,
          (joined (chunks.take (n + 1))).size, t.verdict (joined (chunks.take (n + 1)))⟩ ∧
      t.Delivered d (folder ++ [partName]) (folder ++ [name]) (joined (chunks.take (n + 1)))
        (receiveAll (chunks.take (n + 1)) (t, d)) := by
  obtain ⟨⟨-, hn, hfull⟩, hfirst⟩ := hk
  have hu := h.underway_take n (Nat.le_of_lt hn) fun k hk => hfirst k (Nat.lt_succ_of_le hk)
  have hzero : t.received = 0 := h.counts.received
  rcases hu.receive h chunks[n] with ⟨hmore, -⟩ | ⟨-, hresult, hdone⟩
  · rw [← take_concat hn] at hmore
    exact absurd hfull (Nat.not_le_of_lt hmore)
  rw [← receiveAll_concat, ← take_concat hn] at hdone
  rw [← receiveAll_concat, ← take_concat hn] at hresult
  refine ⟨?_, hdone⟩
  rw [getElem?_reports _ _ _ hn, report, hresult, hdone.transfer]
  simp [completion, counting, hzero]

/-! ### Offered files -/

/-- Where a file can stand, its path leads there and nowhere else. -/
theorem canHold_join {p : Path} (hplain : FileName.IsPlain name.toList)
    (h : d.CanHold (p.join name)) :
    ∃ loc, d.folderAt p = .ok loc ∧ d.Leads (p.join name) loc name ∧
      d.Aims (p.join name) (loc ++ [name]) ∧ d.Ordinary (loc ++ [name]) := by
  obtain ⟨found, hreach, hord⟩ := h
  obtain ⟨loc, rfl, hloc, hleads⟩ := hreach.join hplain hord.2
  refine ⟨loc, hloc, hleads, Disk.aims_join hplain (Disk.isAt_of_folderAt hloc) ?_, hord⟩
  rw [hleads.entryAt?]
  exact hord.2

/-- An offered file is ready to be received where both its files can stand. -/
theorem exists_ready {fileId : String} {offer : FileOffer} {p : Path} {claims : Claims}
    (ht : t = ofOffer fileId offer p claims) (hq : d.faults = [])
    (hstaging : d.CanHold t.stagingPath) (hfinal : d.CanHold t.finalPath)
    (hdevice : d.entryAt? t.stagingPath ≠ some .fullDevice) :
    ∃ folder partName name, t.Ready d folder partName name := by
  obtain ⟨name, hlies⟩ := exists_liesIn fileId offer p claims
  rw [← ht] at hlies
  have hpart := FileName.plain_staged hlies.plain
  rw [hlies.staging] at hstaging hdevice
  rw [hlies.final] at hfinal
  obtain ⟨loc, hloc, hleadsp, haimsp, hordp⟩ := canHold_join hpart hstaging
  obtain ⟨loc', hloc', hleadsf, haimsf, hordf⟩ := canHold_join hlies.plain hfinal
  rw [hloc] at hloc'
  cases hloc'
  rw [hleadsp.entryAt?] at hdevice
  refine ⟨loc, name ++ FileName.stagingSuffix, name, ?_⟩
  rw [← hlies.staging] at hleadsp haimsp
  rw [← hlies.final] at hleadsf haimsf
  refine ⟨⟨?_, fun _ => ?_, ?_, Or.inl ⟨rfl, hdevice⟩⟩, ?_, hq,
    ⟨haimsp, haimsf, by simpa using FileName.staged_ne name⟩, hleadsp, hleadsf, hordp, hordf⟩
  all_goals rw [ht]; rfl

/-- **Delivery.** While the chunks of an offered file do not fill it, each is reported as counted,
the staging file holds them behind each other and nothing changes at the final path. The chunk
that fills it is reported as the last; then the final path holds the chunks up to it behind each
other, and there is no staging file. No later chunk changes anything. -/
theorem delivers {fileId : String} {offer : FileOffer} {p : Path} {claims : Claims}
    (ht : t = ofOffer fileId offer p claims) (hq : d.faults = [])
    (hstaging : d.CanHold t.stagingPath) (hfinal : d.CanHold t.finalPath)
    (hdevice : d.entryAt? t.stagingPath ≠ some .fullDevice) (sessionId : String)
    (chunks : List ByteArray) {n : Nat} (hn : n < chunks.length) :
    ((∀ k ≤ n + 1, ¬t.Fills chunks k) →
        (reports sessionId chunks (t, d))[n]? =
            some ⟨sessionId, fileId, .taken, (joined (chunks.take (n + 1))).size, none⟩ ∧
          (receiveAll (chunks.take (n + 1)) (t, d)).2.contentAt? t.stagingPath =
            some (joined (chunks.take (n + 1))) ∧
          (receiveAll (chunks.take (n + 1)) (t, d)).2.entryAt? t.finalPath =
            d.entryAt? t.finalPath) ∧
      ∀ k, t.FillsFirst chunks k →
        let whole := joined (chunks.take k)
        (n + 1 = k →
          (reports sessionId chunks (t, d))[n]? =
              some ⟨sessionId, fileId,
                if t.verdict whole = some false then .completedWithOtherHash else .completed,
                whole.size, t.verdict whole⟩ ∧
            (receiveAll (chunks.take k) (t, d)).2.contentAt? t.finalPath = some whole ∧
            (receiveAll (chunks.take k) (t, d)).2.entryAt? t.stagingPath = none) ∧
        (k < n + 1 →
          (reports sessionId chunks (t, d))[n]? =
              some ⟨sessionId, fileId, .alreadyCompleted, whole.size, t.verdict whole⟩ ∧
            receiveAll (chunks.take (n + 1)) (t, d) = receiveAll (chunks.take k) (t, d)) := by
  obtain ⟨folder, partName, name, hready⟩ := exists_ready ht hq hstaging hfinal hdevice
  have hid : t.fileId = fileId := by rw [ht]; rfl
  have hzero : t.received = 0 := hready.counts.received
  have hne : folder ++ [name] ≠ folder ++ [partName] := hready.placed.ne.symm
  rw [← hid]
  refine ⟨fun hopen => ?_, fun k hk => ⟨fun hnk => ?_, fun hkn => ?_⟩⟩
  · obtain ⟨hreport, hu⟩ := hready.taken sessionId hn hopen
    obtain ⟨mode, hfile⟩ := hu.staged (List.ne_nil_of_length_pos (by simp; omega))
    refine ⟨hreport, ?_, ?_⟩
    · rw [Disk.contentAt?, (hready.leadsStaging.edits hu.edits).entryAt?, hfile]
    · rw [(hready.leadsFinal.edits hu.edits).entryAt?, hready.leadsFinal.entryAt?,
        hu.edits.get?_eq (by simpa using hne)]
  · subst hnk
    obtain ⟨hreport, hdone⟩ := hready.delivered sessionId hk
    obtain ⟨mode, hfile⟩ := hdone.there
    refine ⟨hreport, ?_, ?_⟩
    · rw [Disk.contentAt?, hfile]
    · rw [(hready.leadsStaging.edits hdone.edits).entryAt?, hdone.gone]
  · obtain ⟨j, rfl⟩ : ∃ j, k = j + 1 := ⟨k - 1, (Nat.sub_add_cancel hk.1.1).symm⟩
    obtain ⟨-, hdone⟩ := hready.delivered sessionId hk
    have hcompleted : (receiveAll (chunks.take (j + 1)) (t, d)).1.completed = true := by
      rw [hdone.transfer]
    refine ⟨?_, receiveAll_take hcompleted (Nat.le_of_lt hkn)⟩
    rw [getElem?_reports _ _ _ hn, receiveAll_take hcompleted (Nat.le_of_lt hkn),
      receiveAll_take hcompleted (Nat.le_of_lt_succ hkn), receive_completed hcompleted, report,
      hdone.transfer]
    simp [counting, hzero]

/-- A disk with an older file of the name and with what an earlier run has left of another. -/
def leftoverDisk : Disk :=
  ((Disk.mk ∅ [] []).put ["out"] .folder |>.put ["out", "a.txt"] (.file 0o644 ⟨#[7, 7, 7, 7]⟩)).put
    ["out", "a.txt.part"] (.file 0o600 ⟨#[9, 9]⟩)

/-- An empty chunk comes first, the third chunk has one byte too many, and another one follows. -/
def leftoverChunks : List ByteArray := [⟨#[]⟩, ⟨#[1, 2]⟩, ⟨#[3, 4]⟩, ⟨#[5]⟩]

def leftoverFile : Transfer := ofOffer "f" { name := some "a.txt", size := 3 } ⟨"out"⟩ []

theorem delivers_over_leftovers :
    (reports "s" leftoverChunks (leftoverFile, leftoverDisk))[2]? =
        some ⟨"s", "f", .completed, 4, none⟩ ∧
      (receiveAll (leftoverChunks.take 3) (leftoverFile, leftoverDisk)).2.contentAt?
        ⟨"out/a.txt"⟩ = some ⟨#[1, 2, 3, 4]⟩ := by
  have hpaths : leftoverFile.stagingPath = ⟨"out/a.txt.part"⟩ ∧
      leftoverFile.finalPath = ⟨"out/a.txt"⟩ := by decide
  have hstaging : leftoverDisk.CanHold leftoverFile.stagingPath := by
    rw [hpaths.1]
    exact ⟨_, ⟨["out"], "a.txt.part", rfl, rfl, by decide⟩, Disk.ordinary_file rfl⟩
  have hfinal : leftoverDisk.CanHold leftoverFile.finalPath := by
    rw [hpaths.2]
    exact ⟨_, ⟨["out"], "a.txt", rfl, rfl, by decide⟩, Disk.ordinary_file rfl⟩
  have hdevice : leftoverDisk.entryAt? leftoverFile.stagingPath ≠ some .fullDevice := by
    rw [hpaths.1]
    nofun
  have hfirst : leftoverFile.FillsFirst leftoverChunks 3 := by
    refine ⟨by decide, fun j hj => ?_⟩
    match j, hj with
    | 0, _ | 1, _ | 2, _ => decide
  have hlength : 2 < leftoverChunks.length := by decide
  have hall := delivers (t := leftoverFile) rfl rfl hstaging hfinal hdevice "s" leftoverChunks
    hlength
  have h := (hall.2 3 hfirst).1 rfl
  have hwhole : joined (leftoverChunks.take 3) = ⟨#[1, 2, 3, 4]⟩ := by decide
  have hverdict : ∀ whole, leftoverFile.verdict whole = none := fun _ => rfl
  rw [hwhole, hverdict, hpaths.2] at h
  exact ⟨h.1, h.2.1⟩

end Transfer
end FileReceiver
