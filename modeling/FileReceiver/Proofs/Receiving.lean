/-
# What a chunk changes

A chunk edits the staging file and, when it is the last one, the file at the
final path; it touches nothing else (`receive_edits`). Of a transfer that is
not complete the staging file holds what has been counted (`Counts`), and each
chunk takes one of five steps (`Step`): it is refused and the file is cut back
to what was counted, it is counted, or it is counted and the transfer is
completed, or fails to be, on the way to the final path.

Key definitions: `Transfer.Placed`, `Transfer.RollsBack`, `Transfer.Counts`,
`Transfer.Step`.
Key theorems: `Transfer.append_counts`, `Transfer.finish_cases`,
`Transfer.receive_edits`, `Transfer.receive_step`.
-/
import FileReceiver.Proofs.Calls
import FileReceiver.Transfer.Chunk

namespace FileReceiver
namespace Transfer

open Disk (Edits Aims Leads Ordinary)

variable {t t' : Transfer} {d d' : Disk} {loc staging final : Location} {bytes content : ByteArray}

/-- A transfer of which more bytes have been counted. -/
def counting (t : Transfer) (count : Nat) : Transfer := { t with received := t.received + count }

/-- The staging path and the final path lead to two entries, neither of which is a link. -/
structure Placed (t : Transfer) (d : Disk) (staging final : Location) : Prop where
  aimsStaging : d.Aims t.stagingPath staging
  aimsFinal : d.Aims t.finalPath final
  ne : staging ≠ final

theorem Placed.edits {locs : List Location} (h : t.Placed d staging final) (he : d.Edits locs d') :
    t.Placed d' staging final :=
  ⟨h.aimsStaging.edits he, h.aimsFinal.edits he, h.ne⟩

theorem Placed.counting (h : t.Placed d staging final) (count : Nat) :
    (t.counting count).Placed d staging final :=
  ⟨h.aimsStaging, h.aimsFinal, h.ne⟩

theorem Placed.verified (h : t.Placed d staging final) (v : Option Bool) :
    Placed { t with hashVerified := v } d staging final :=
  ⟨h.aimsStaging, h.aimsFinal, h.ne⟩

/-! ### Appending -/

/-- What stands in a staging file that has been opened: nothing yet before the first bytes, and
what stood there for the others. -/
theorem openStaging_cases {res : Except SystemError Location} (ha : d.Aims t.stagingPath loc)
    (h : t.openStaging d = (res, d')) :
    (∃ e, res = .error e ∧ d.Edits [] d') ∨
      res = .ok loc ∧ d.Edits [loc] d' ∧ d'.Ordinary loc ∧
        (0 < t.received → d.Edits [] d') ∧
        (t.received = 0 → (∃ mode, d'.get? loc = some (.file mode .empty)) ∨
          d.get? loc = some .fullDevice) := by
  unfold openStaging at h
  split at h
  · rename_i hpos
    obtain ⟨hedit, ⟨e, rfl⟩ | ⟨place, hr, rfl, hord⟩⟩ := Disk.openEnd_cases h
    · exact Or.inl ⟨e, rfl, hedit⟩
    · rw [ha.location hr] at hord ⊢
      exact Or.inr ⟨rfl, hedit.of_nil, hord.edits hedit, fun _ => hedit, fun h0 => by omega⟩
  · rename_i hpos
    rcases Disk.openFresh_cases h with ⟨e, rfl, hedit⟩ | ⟨place, hr, rfl, hedit, hget⟩
    · exact Or.inl ⟨e, rfl, hedit⟩
    · rw [ha.location hr] at hedit hget ⊢
      refine Or.inr ⟨rfl, hedit, ?_, fun h0 => absurd h0 hpos, fun _ => hget.imp_right And.left⟩
      rcases hget with ⟨mode', hget⟩ | ⟨-, hget⟩
      all_goals simp [Ordinary, hget]

/-- Appending changes no more than the staging file. -/
theorem append_edits (ha : d.Aims t.stagingPath loc) (bytes : ByteArray) :
    d.Edits [loc] (t.append bytes d).2 ∧ ((t.append bytes d).1 = .ok () →
      (t.append bytes d).2.Ordinary loc) := by
  unfold append
  rcases hopen : t.openStaging d with ⟨res, opened⟩
  rcases openStaging_cases ha hopen with ⟨e, rfl, hedit⟩ | ⟨rfl, hedit, hord, -⟩
  · exact ⟨hedit.of_nil, nofun⟩
  dsimp only
  have hwrite := opened.write_edits loc bytes
  rcases hw : opened.write loc bytes with ⟨_ | ⟨⟨⟩⟩, written⟩
  · rw [hw] at hwrite
    exact ⟨(hedit.trans hwrite).trans (written.setLength_edits loc t.received), nofun⟩
  · rw [hw] at hwrite
    exact ⟨hedit.trans hwrite, fun _ => hord.edits hwrite⟩

/-- The cutting off that follows a failing write succeeds. -/
def RollsBack (t : Transfer) (bytes : ByteArray) (d : Disk) : Prop :=
  ∀ loc opened e failed, t.openStaging d = (.ok loc, opened) →
    opened.write loc bytes = (.error e, failed) → (failed.setLength loc t.received).1 = .ok ()

/-- The staging file of an incomplete transfer holds what has been counted, and no more. Until the
first byte is counted there may be no such file, or any other. -/
structure Counts (t : Transfer) (d : Disk) (staging : Location) (content : ByteArray) : Prop where
  incomplete : t.completed = false
  /-- Nothing is said about a hash that was not announced. -/
  unhashed : t.hash = none → t.hashVerified = none
  received : t.received = content.size
  staged : content = .empty ∧ d.get? staging ≠ some .fullDevice ∨
    ∃ mode, d.get? staging = some (.file mode content)

theorem Counts.congr (h : t.Counts d staging content) (he : d'.get? staging = d.get? staging) :
    t.Counts d' staging content :=
  ⟨h.incomplete, h.unhashed, h.received, by rw [he]; exact h.staged⟩

/-- Opened, the staging file holds what has been counted. -/
theorem Counts.openStaging (hc : t.Counts d loc content) (ha : d.Aims t.stagingPath loc)
    {found : Location} (h : t.openStaging d = (.ok found, d')) :
    found = loc ∧ d.Edits [loc] d' ∧ ∃ mode, d'.get? loc = some (.file mode content) := by
  rcases openStaging_cases ha h with ⟨e, he, -⟩ | ⟨hloc, hedit, -, hpos, hzero⟩
  · cases he
  refine ⟨Except.ok.inj hloc, hedit, ?_⟩
  by_cases h0 : t.received = 0
  · have hempty : content = .empty := ByteArray.size_eq_zero_iff.mp (hc.received.symm.trans h0)
    subst hempty
    refine (hzero h0).resolve_right fun hdev => ?_
    rcases hc.staged with ⟨-, hne⟩ | ⟨mode, hf⟩
    · exact hne hdev
    · rw [hdev] at hf
      cases hf
  · rcases hc.staged with ⟨rfl, -⟩ | ⟨mode, hf⟩
    · exact absurd hc.received h0
    · exact ⟨mode, by rw [(hpos (Nat.pos_of_ne_zero h0)).get?_of_nil, hf]⟩

/-- **A failing append takes nothing.** A chunk is put behind what has been counted; one that
cannot be leaves in the staging file what has been counted, if it can be cut off. -/
theorem append_counts {res : Except SystemError Unit} (hc : t.Counts d loc content)
    (ha : d.Aims t.stagingPath loc) (h : t.append bytes d = (res, d')) :
    (res = .ok () ∧ ∃ mode, d'.get? loc = some (.file mode (content ++ bytes))) ∨
      (∃ e, res = .error e) ∧ (t.RollsBack bytes d → t.Counts d' loc content) := by
  unfold append at h
  rcases hopen : t.openStaging d with ⟨res', opened⟩
  rw [hopen] at h
  rcases openStaging_cases ha hopen with ⟨e, rfl, hedit⟩ | ⟨rfl, -⟩
  · cases h
    exact Or.inr ⟨⟨e, rfl⟩, fun _ => hc.congr (hedit.get?_of_nil loc)⟩
  obtain ⟨-, -, mode, hf⟩ := hc.openStaging ha hopen
  dsimp only at h
  rcases hw : opened.write loc bytes with ⟨res', written⟩
  rw [hw] at h
  obtain ⟨-, ⟨rfl, hget⟩ | ⟨e, n, rfl, hget⟩⟩ := Disk.write_file hf hw
  · cases h
    exact Or.inl ⟨rfl, mode, hget⟩
  · cases h
    refine Or.inr ⟨⟨e, rfl⟩, fun hback => ?_⟩
    have hok := hback loc opened e written hopen hw
    rcases hset : written.setLength loc t.received with ⟨res', cut⟩
    rw [hset] at hok
    rcases Disk.setLength_file hget hset with ⟨⟨e, rfl⟩, -⟩ | ⟨-, -, hcut⟩
    · cases hok
    have hcontent : Disk.resized (content ++ bytes.extract 0 n) t.received = content := by
      rw [Disk.resized_of_le (by rw [hc.received, ByteArray.size_append]; omega), hc.received]
      exact ByteArray.extract_append_eq_left rfl
    rw [hcontent] at hcut
    exact ⟨hc.incomplete, hc.unhashed, hc.received, Or.inr ⟨mode, hcut⟩⟩

/-! ### Completing -/

/-- What comparing the announced hash, if there is one, with a content says. -/
def verdict (t : Transfer) (content : ByteArray) : Option Bool :=
  t.hash.map fun announced => FileHash.agree announced (FileHash.ofContent content)

/-- Comparing changes nothing on the disk, and no more of the transfer than what is said about the
hash: that is the verdict on the content of the staging file. -/
theorem verify_cases {res : Except SystemError Transfer} (ha : d.Aims t.stagingPath staging)
    (h : t.verify d = (res, d')) :
    d.Edits [] d' ∧ ((∃ e, res = .error e) ∨ ∃ v, res = .ok { t with hashVerified := v } ∧
      ∀ mode content, (t.hash = none → t.hashVerified = none) →
        d.get? staging = some (.file mode content) → v = t.verdict content) := by
  unfold verify at h
  split at h
  · rename_i hhash
    cases h
    exact ⟨Edits.refl d, Or.inr ⟨t.hashVerified, rfl, fun _ _ hnone _ => by
      rw [hnone hhash, verdict, hhash, Option.map_none]⟩⟩
  · rename_i announced hhash
    rcases hread : d.read t.stagingPath with ⟨res', read⟩
    rw [hread] at h
    obtain ⟨hedit, ⟨e, rfl⟩ | ⟨place, mode, content, hr, hget, rfl⟩⟩ := Disk.read_cases hread
    · cases h
      exact ⟨hedit, Or.inl ⟨e, rfl⟩⟩
    · cases h
      refine ⟨hedit, Or.inr ⟨_, rfl, fun mode' content' _ hget' => ?_⟩⟩
      rw [ha.location hr, hget'] at hget
      cases hget
      rw [verdict, hhash, Option.map_some]

/-- Clearing takes away what stands at the path, if it can. -/
theorem clear_cases {p : Path} {res : Except SystemError Unit} (ha : d.Aims p loc)
    (h : clear p d = (res, d')) :
    ((∃ e, res = .error e) ∧ d.Edits [] d') ∨ res = .ok () ∧ d.Edits [loc] d' := by
  unfold clear at h
  rcases hremove : d.remove p with ⟨res', removed⟩
  rw [hremove] at h
  rcases Disk.remove_cases ha hremove with ⟨⟨e, rfl⟩, hedit⟩ | ⟨rfl, hedit, -⟩
  · dsimp only at h
    split at h
    · cases h
      exact Or.inr ⟨rfl, hedit.of_nil⟩
    · cases h
      exact Or.inl ⟨⟨e, rfl⟩, hedit⟩
  · cases h
    exact Or.inr ⟨rfl, hedit⟩

/-- Promoting moves the staging file to the final path, or leaves it where it is. -/
theorem promote_cases {res : Except SystemError Unit} (hp : t.Placed d staging final)
    (h : t.promote d = (res, d')) :
    ((∃ e, res = .error e) ∧ d.Edits [final] d') ∨
      res = .ok () ∧ d.Edits [staging, final] d' ∧ d'.get? staging = none ∧
        d'.get? final = d.get? staging ∧ d.get? staging ≠ none ∧ d'.Reaches t.finalPath final := by
  unfold promote at h
  rcases hclear : clear t.finalPath d with ⟨res', cleared⟩
  rw [hclear] at h
  rcases clear_cases hp.aimsFinal hclear with ⟨⟨e, rfl⟩, hedit⟩ | ⟨rfl, hedit⟩
  · cases h
    exact Or.inl ⟨⟨e, rfl⟩, hedit.of_nil⟩
  have hp' := hp.edits hedit
  have hsame : cleared.get? staging = d.get? staging := hedit.get?_eq (by simpa using hp.ne)
  rcases Disk.rename_cases hp'.aimsStaging hp'.aimsFinal hp'.ne h with
    ⟨herror, hedit'⟩ | ⟨rfl, hedit', hgone, hthere, hsome, hreach⟩
  · exact Or.inl ⟨herror, hedit.trans hedit'.of_nil⟩
  · rw [hsame] at hthere hsome
    exact Or.inr ⟨rfl, (hedit.mono (by simp)).trans hedit', hgone, hthere, hsome, hreach⟩

/-- Completing leaves the staging file where it is, or moves it to the final path. -/
theorem finish_cases {result : ChunkResult} (hp : t.Placed d staging final)
    (h : t.finish d = (result, t', d')) :
    ∃ v, ((∃ e, result = .failed e) ∧ t' = { t with hashVerified := v } ∧ d.Edits [final] d' ∧
        (v = t.hashVerified ∨ ∀ mode content, (t.hash = none → t.hashVerified = none) →
          d.get? staging = some (.file mode content) → v = t.verdict content)) ∨
      (result = t'.completion ∧ t' = { t with hashVerified := v, completed := true } ∧
        d.Edits [staging, final] d' ∧ d'.get? staging = none ∧
        d'.get? final = d.get? staging ∧ d.get? staging ≠ none ∧ d'.Reaches t.finalPath final ∧
        ∀ mode content, (t.hash = none → t.hashVerified = none) →
          d.get? staging = some (.file mode content) → v = t.verdict content) := by
  unfold finish at h
  rcases hverify : t.verify d with ⟨res, compared⟩
  rw [hverify] at h
  obtain ⟨hedit, ⟨e, rfl⟩ | ⟨v, rfl, hv⟩⟩ := verify_cases hp.aimsStaging hverify
  · cases h
    exact ⟨t.hashVerified, Or.inl ⟨⟨e, rfl⟩, rfl, hedit.of_nil, Or.inl rfl⟩⟩
  dsimp only at h
  have hp' := (hp.edits hedit).verified v
  rcases hpromote : promote { t with hashVerified := v } compared with ⟨res, promoted⟩
  rw [hpromote] at h
  rcases promote_cases hp' hpromote with
    ⟨⟨e, rfl⟩, hedit'⟩ | ⟨rfl, hedit', hgone, hthere, hsome, hreach⟩
  · cases h
    exact ⟨v, Or.inl ⟨⟨e, rfl⟩, rfl, hedit.of_nil.trans hedit', Or.inr hv⟩⟩
  · cases h
    rw [hedit.get?_of_nil] at hthere hsome
    exact ⟨v, Or.inr ⟨rfl, rfl, hedit.of_nil.trans hedit', hgone, hthere, hsome, hreach, hv⟩⟩

/-! ### One chunk -/

/-- The ways a chunk can go: it is ignored, it is not appended, it is not the last, or it makes the
file complete. -/
theorem receive_cases {result : ChunkResult} (h : t.receive bytes d = (result, t', d')) :
    (t.completed = true ∧ result = .alreadyCompleted ∧ t' = t ∧ d' = d) ∨
      t.completed = false ∧
        ((∃ e, t.append bytes d = (.error e, d') ∧ result = .failed e ∧ t' = t) ∨
          ∃ appended, t.append bytes d = (.ok (), appended) ∧
            ((t.received + bytes.size < t.declaredSize.toNat ∧ result = .taken ∧
                t' = t.counting bytes.size ∧ d' = appended) ∨
              (t.declaredSize.toNat ≤ t.received + bytes.size ∧
                (t.counting bytes.size).finish appended = (result, t', d')))) := by
  unfold receive at h
  by_cases hdone : t.completed = true
  · rw [if_pos hdone] at h
    cases h
    exact Or.inl ⟨hdone, rfl, rfl, rfl⟩
  · rw [if_neg hdone] at h
    refine Or.inr ⟨eq_false_of_ne_true hdone, ?_⟩
    rcases happend : t.append bytes d with ⟨_ | ⟨⟨⟩⟩, appended⟩
    · rw [happend] at h
      cases h
      exact Or.inl ⟨_, rfl, rfl, rfl⟩
    · rw [happend] at h
      dsimp only at h
      refine Or.inr ⟨appended, rfl, ?_⟩
      split at h
      · rename_i hmore
        cases h
        exact Or.inl ⟨hmore, rfl, rfl, rfl⟩
      · rename_i hfull
        exact Or.inr ⟨Nat.le_of_not_lt hfull, h⟩

theorem receive_completed (h : t.completed = true) (bytes : ByteArray) (d : Disk) :
    t.receive bytes d = (.alreadyCompleted, t, d) := by
  rw [receive, if_pos h]

theorem verify_keeps (h : t.verify d = (.ok t', d')) : ∃ v, t' = { t with hashVerified := v } := by
  unfold verify at h
  repeat' split at h
  all_goals cases h
  · exact ⟨t.hashVerified, rfl⟩
  · exact ⟨_, rfl⟩

theorem finish_keeps {result : ChunkResult} (h : t.finish d = (result, t', d')) :
    ∃ completed v, t' = { t with completed := completed, hashVerified := v } := by
  unfold finish at h
  split at h
  · cases h
    exact ⟨t.completed, t.hashVerified, rfl⟩
  rename_i compared _ hverify
  obtain ⟨v, rfl⟩ := verify_keeps hverify
  split at h
  all_goals
    cases h
    exact ⟨_, _, rfl⟩

/-- A chunk does not make another file of a transfer. -/
theorem receive_keeps {result : ChunkResult} (h : t.receive bytes d = (result, t', d')) :
    ∃ count completed v,
      t' = { t with received := count, completed := completed, hashVerified := v } := by
  rcases receive_cases h with ⟨-, -, rfl, -⟩ | ⟨-, ⟨-, -, -, rfl⟩ | ⟨appended, -, h⟩⟩
  · exact ⟨t'.received, t'.completed, t'.hashVerified, rfl⟩
  · exact ⟨t'.received, t'.completed, t'.hashVerified, rfl⟩
  rcases h with ⟨-, -, rfl, -⟩ | ⟨-, h⟩
  · exact ⟨_, _, _, rfl⟩
  · obtain ⟨completed, v, rfl⟩ := finish_keeps h
    exact ⟨_, _, _, rfl⟩

theorem receive_paths {result : ChunkResult} (h : t.receive bytes d = (result, t', d')) :
    t'.fileId = t.fileId ∧ t'.finalPath = t.finalPath ∧ t'.stagingPath = t.stagingPath := by
  obtain ⟨count, completed, v, rfl⟩ := receive_keeps h
  exact ⟨rfl, rfl, rfl⟩

/-- **A chunk touches the two files of its transfer.** -/
theorem receive_edits (hp : t.Placed d staging final) (bytes : ByteArray) :
    d.Edits [staging, final] (t.receive bytes d).2.2 := by
  rcases h : t.receive bytes d with ⟨result, t', d'⟩
  obtain ⟨happend, -⟩ := append_edits hp.aimsStaging bytes
  rcases receive_cases h with ⟨-, -, -, rfl⟩ | ⟨-, ⟨e, ha, -⟩ | ⟨appended, ha, h⟩⟩
  · exact (Edits.refl d').of_nil
  · rw [ha] at happend
    exact happend.mono (by simp)
  rw [ha] at happend
  have hstaging : d.Edits [staging, final] appended := happend.mono (by simp)
  rcases h with ⟨-, -, -, rfl⟩ | ⟨-, h⟩
  · exact hstaging
  have hp' := (hp.edits happend).counting bytes.size
  obtain ⟨v, ⟨-, -, hedit, -⟩ | ⟨-, -, hedit, -⟩⟩ := finish_cases hp' h
  · exact hstaging.trans (hedit.mono (by simp))
  · exact hstaging.trans hedit

/-- The steps of an incomplete transfer of which `content` has been counted, by a chunk. -/
inductive Step (t : Transfer) (d : Disk) (staging final : Location) (content bytes : ByteArray) :
    ChunkResult → Transfer → Disk → Prop
  /-- The chunk cannot be put behind what has been counted. -/
  | refused (e : SystemError) (d' : Disk) (failed : ∃ e, (t.append bytes d).1 = .error e)
      (edits : d.Edits [staging] d')
      (counts : t.RollsBack bytes d → t.Counts d' staging content) :
      Step t d staging final content bytes (.failed e) t d'
  /-- The chunk is counted, and more is to come. -/
  | taken (d' : Disk) (appended : (t.append bytes d).1 = .ok ()) (edits : d.Edits [staging] d')
      (more : t.received + bytes.size < t.declaredSize.toNat)
      (counts : (t.counting bytes.size).Counts d' staging (content ++ bytes))
      (staged : ∃ mode, d'.get? staging = some (.file mode (content ++ bytes))) :
      Step t d staging final content bytes .taken (t.counting bytes.size) d'
  /-- The chunk is counted, but the file cannot be completed. -/
  | unfinished (e : SystemError) (d' : Disk) (v : Option Bool)
      (appended : (t.append bytes d).1 = .ok ()) (edits : d.Edits [staging, final] d')
      (full : t.declaredSize.toNat ≤ t.received + bytes.size)
      (counts : Counts { t.counting bytes.size with hashVerified := v } d' staging
        (content ++ bytes)) :
      Step t d staging final content bytes (.failed e)
        { t.counting bytes.size with hashVerified := v } d'
  /-- The chunk is counted, and the file stands at the final path. -/
  | finished (result : ChunkResult) (t' : Transfer) (d' : Disk) (answer : result = t'.completion)
      (appended : (t.append bytes d).1 = .ok ()) (edits : d.Edits [staging, final] d')
      (full : t.declaredSize.toNat ≤ t.received + bytes.size)
      (state : t' = { t.counting bytes.size with
        hashVerified := t.verdict (content ++ bytes), completed := true })
      (gone : d'.get? staging = none)
      (there : ∃ mode, d'.entryAt? t.finalPath = some (.file mode (content ++ bytes))) :
      Step t d staging final content bytes result t' d'

/-- **One chunk, one step.** -/
theorem receive_step {result : ChunkResult} (hc : t.Counts d staging content)
    (hp : t.Placed d staging final) (h : t.receive bytes d = (result, t', d')) :
    t.Step d staging final content bytes result t' d' := by
  obtain ⟨happend, -⟩ := append_edits hp.aimsStaging bytes
  rcases receive_cases h with ⟨hdone, -⟩ | ⟨-, ⟨e, ha, rfl, rfl⟩ | ⟨appended, ha, h⟩⟩
  · rw [hc.incomplete] at hdone
    cases hdone
  · rw [ha] at happend
    rcases append_counts hc hp.aimsStaging ha with ⟨hok, -⟩ | ⟨-, hback⟩
    · cases hok
    · exact .refused e d' ⟨e, by rw [ha]⟩ happend hback
  rw [ha] at happend
  obtain ⟨mode, hfile⟩ : ∃ mode, appended.get? staging = some (.file mode (content ++ bytes)) := by
    rcases append_counts hc hp.aimsStaging ha with ⟨-, hfile⟩ | ⟨⟨e, he⟩, -⟩
    · exact hfile
    · cases he
  have hok : (t.append bytes d).1 = .ok () := by rw [ha]
  have hcount : (t.counting bytes.size).received = (content ++ bytes).size := by
    rw [ByteArray.size_append, counting, hc.received]
  have hcounts : (t.counting bytes.size).Counts appended staging (content ++ bytes) :=
    ⟨hc.incomplete, hc.unhashed, hcount, Or.inr ⟨mode, hfile⟩⟩
  rcases h with ⟨hmore, rfl, rfl, rfl⟩ | ⟨hfull, h⟩
  · exact .taken d' hok happend hmore hcounts ⟨mode, hfile⟩
  have hp' := (hp.edits happend).counting bytes.size
  have hstaging : d.Edits [staging, final] appended := happend.mono (by simp)
  obtain ⟨v, ⟨⟨e, rfl⟩, rfl, hedit, hv⟩ | ⟨rfl, ht', hedit, hgone, hthere, -, hreach, hv⟩⟩ :=
    finish_cases hp' h
  · have hsame : d'.get? staging = some (.file mode (content ++ bytes)) := by
      rw [hedit.get?_eq (by simpa using hp.ne), hfile]
    refine .unfinished e d' v hok (hstaging.trans (hedit.mono (by simp))) hfull
      ⟨hc.incomplete, fun hnone => ?_, hcount, Or.inr ⟨mode, hsame⟩⟩
    rcases hv with rfl | hv
    · exact hc.unhashed hnone
    · rw [hv mode _ hc.unhashed hfile, verdict, hnone, Option.map_none]
  · rw [hv mode _ hc.unhashed hfile] at ht'
    exact .finished _ t' d' rfl hok (hstaging.trans hedit) hfull ht' hgone
      ⟨mode, hreach.entryAt?.trans (hthere.trans hfile)⟩

/-! ### With nothing left to fail -/

variable {folder : Location} {name partName : String}

theorem clear_ok {p : Path} (hq : d.faults = []) (hl : d.Leads p folder name)
    (ho : d.Ordinary (folder ++ [name])) : (clear p d).1 = .ok () := by
  have hremove := Disk.remove_ok hq hl ho
  unfold clear
  rcases hr : d.remove p with ⟨res, removed⟩
  rw [hr] at hremove
  subst hremove
  split
  · rfl
  · rename_i e _ herror
    split at herror
    · cases herror
      rfl
    · cases herror

theorem promote_ok (hq : d.faults = []) (hs : d.Leads t.stagingPath folder partName)
    (hf : d.Leads t.finalPath folder name) (hne : folder ++ [partName] ≠ folder ++ [name])
    (hords : d.Ordinary (folder ++ [partName])) (hthere : d.get? (folder ++ [partName]) ≠ none)
    (hordf : d.Ordinary (folder ++ [name])) (ha : d.Aims t.finalPath (folder ++ [name])) :
    (t.promote d).1 = .ok () := by
  have hclear := clear_ok hq hf hordf
  unfold promote
  rcases hc : clear t.finalPath d with ⟨res, cleared⟩
  rw [hc] at hclear
  subst hclear
  rcases clear_cases ha hc with ⟨⟨e, he⟩, -⟩ | ⟨-, hedit⟩
  · cases he
  refine Disk.rename_ok (hedit.quiet hq) (hs.edits hedit) (hf.edits hedit) (hords.edits hedit) ?_
    (hordf.edits hedit)
  rwa [hedit.get?_eq (by simpa using hne)]

theorem status_completion (t : Transfer) : t.completion.status = .completed := by
  unfold completion
  split <;> rfl

theorem completion_ne (t : Transfer) (e : SystemError) : t.completion ≠ .failed e := fun h => by
  have hstatus := t.status_completion
  rw [h] at hstatus
  cases hstatus

theorem append_ok (hq : d.faults = []) (hc : t.Counts d (folder ++ [partName]) content)
    (ha : d.Aims t.stagingPath (folder ++ [partName]))
    (hs : d.Leads t.stagingPath folder partName) (hord : d.Ordinary (folder ++ [partName]))
    (bytes : ByteArray) : (t.append bytes d).1 = .ok () := by
  have hopen : (t.openStaging d).1 = .ok (folder ++ [partName]) := by
    unfold Transfer.openStaging
    split
    · rename_i hpos
      rcases hc.staged with ⟨rfl, -⟩ | ⟨mode, hf⟩
      · rw [hc.received] at hpos
        exact absurd hpos (by simp)
      · exact Disk.openEnd_ok hq (hs.resolve _) rfl hf
    · exact Disk.openFresh_ok hq (hs.resolve _) hord
  unfold append
  rcases ho : t.openStaging d with ⟨res, opened⟩
  rw [ho] at hopen
  subst hopen
  obtain ⟨-, hedit, mode, hf⟩ := hc.openStaging ha ho
  have hwrite := Disk.write_ok (hedit.quiet hq) (by rw [hf]; simp) bytes
  dsimp only
  rcases hw : opened.write (folder ++ [partName]) bytes with ⟨res, written⟩
  rw [hw] at hwrite
  subst hwrite
  rfl

theorem verify_ok {mode : Nat} (hq : d.faults = []) (hs : d.Leads t.stagingPath folder partName)
    (hfile : d.get? (folder ++ [partName]) = some (.file mode content)) :
    ∃ compared, (t.verify d).1 = .ok compared := by
  unfold verify
  split
  · exact ⟨t, rfl⟩
  · have hread := Disk.read_ok hq (hs.resolve _) rfl hfile
    rcases hr : d.read t.stagingPath with ⟨res, read⟩
    rw [hr] at hread
    subst hread
    exact ⟨_, rfl⟩

theorem finish_ok {mode : Nat} (hq : d.faults = [])
    (hp : t.Placed d (folder ++ [partName]) (folder ++ [name]))
    (hs : d.Leads t.stagingPath folder partName) (hf : d.Leads t.finalPath folder name)
    (hfile : d.get? (folder ++ [partName]) = some (.file mode content))
    (hordf : d.Ordinary (folder ++ [name])) (e : SystemError) : (t.finish d).1 ≠ .failed e := by
  obtain ⟨compared, hverify⟩ := verify_ok hq hs hfile
  unfold finish
  rcases hv : t.verify d with ⟨res, read⟩
  rw [hv] at hverify
  subst hverify
  obtain ⟨v, rfl⟩ := verify_keeps hv
  obtain ⟨hedit, -⟩ := verify_cases hp.aimsStaging hv
  have hsame : read.get? (folder ++ [partName]) = some (.file mode content) := by
    rw [hedit.get?_of_nil, hfile]
  have hpromote := promote_ok (t := { t with hashVerified := v }) (hedit.quiet hq) (hs.edits hedit)
    (hf.edits hedit) hp.ne (Disk.ordinary_file hsame) (by rw [hsame]; simp) (hordf.edits hedit)
    (hp.aimsFinal.edits hedit)
  dsimp only
  rcases hm : promote { t with hashVerified := v } read with ⟨res, promoted⟩
  rw [hm] at hpromote
  subst hpromote
  exact completion_ne _ e

/-- **A chunk that nothing stands in the way of is not refused.** -/
theorem receive_ok (hq : d.faults = []) (hc : t.Counts d (folder ++ [partName]) content)
    (hp : t.Placed d (folder ++ [partName]) (folder ++ [name]))
    (hs : d.Leads t.stagingPath folder partName) (hf : d.Leads t.finalPath folder name)
    (hords : d.Ordinary (folder ++ [partName])) (hordf : d.Ordinary (folder ++ [name]))
    (bytes : ByteArray) (e : SystemError) : (t.receive bytes d).1 ≠ .failed e := by
  have hok := append_ok hq hc hp.aimsStaging hs hords bytes
  rcases h : t.receive bytes d with ⟨result, t', d'⟩
  rcases receive_cases h with ⟨hdone, -⟩ | ⟨-, ⟨e, ha, -⟩ | ⟨appended, ha, h⟩⟩
  · rw [hc.incomplete] at hdone
    cases hdone
  · rw [ha] at hok
    cases hok
  rcases h with ⟨-, rfl, -⟩ | ⟨-, h⟩
  · simp
  obtain ⟨hedit, -⟩ := append_edits hp.aimsStaging bytes
  rw [ha] at hedit
  have hp' := (hp.edits hedit).counting bytes.size
  obtain ⟨mode, hfile⟩ : ∃ mode,
      appended.get? (folder ++ [partName]) = some (.file mode (content ++ bytes)) := by
    rcases append_counts hc hp.aimsStaging ha with ⟨-, hfile⟩ | ⟨⟨e, he⟩, -⟩
    · exact hfile
    · cases he
  have hfinish := finish_ok (hedit.quiet hq) hp' (hs.edits hedit) (hf.edits hedit) hfile
    (hordf.edits hedit) e
  rwa [h] at hfinish

end Transfer
end FileReceiver
