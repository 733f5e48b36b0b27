/-
# No two files claim a path

A name that is tried again gets another number, so that no two tries are the
same path; each claim rules out two tries at most, and one of the first
`2 * claims.length + 1` is free (`leastFree_spec`). So a transfer is always
given paths that nobody claims, and the accepted files of a manifest stand
apart: no path of one is a path of another (`Admission.separate_ofManifest`).

Key definitions: `Transfer.Apart`, `Admission.Separate`.
Key theorems: `FileName.numbered_inj`, `leastFree_spec`, `Transfer.free_ofOffer`,
`Admission.separate_ofManifest`.
-/
import FileReceiver.Proofs.Paths
import FileReceiver.Session.Basic

namespace FileReceiver

open FileName (IsPlain)

/-! ### Numbers -/

namespace FileName

variable {name : String}

theorem toDigits_inj {n m : Nat} (h : Nat.toDigits 10 n = Nat.toDigits 10 m) : n = m := by
  rw [← Nat.ofDigitChars_ten_toDigits (n := n), h, Nat.ofDigitChars_ten_toDigits]

/-- Different numbers give different names. -/
theorem numbered_inj (h : IsPlain name.toList) {n m : Nat}
    (he : numbered name n = numbered name m) : n = m := by
  apply toDigits_inj
  rcases numbered_cases h n with ⟨stem, extension, -, hs, hn⟩ | ⟨stem, hs, hn⟩
  · rcases numbered_cases h m with ⟨stem', extension', -, hs', hm⟩ | ⟨stem', hs', -⟩
    · rw [hs] at hs'
      cases hs'
      rw [he, hm] at hn
      simpa using hn.symm
    · rw [hs] at hs'
      cases hs'
  · rcases numbered_cases h m with ⟨stem', extension', -, hs', -⟩ | ⟨stem', hs', hm⟩
    · rw [hs] at hs'
      cases hs'
    · rw [he, hm] at hn
      simpa using hn.symm

/-- A number makes a name longer. -/
theorem numbered_ne (h : IsPlain name.toList) (n : Nat) : numbered name n ≠ name := by
  intro he
  rcases numbered_cases h n with ⟨stem, extension, hname, -, hn⟩ | ⟨stem, -, hn⟩
  · have hlen := congrArg List.length (hn.symm.trans (by rw [he, hname]))
    simp at hlen
    omega
  · have hlen := congrArg List.length (hn.symm.trans (by rw [he]))
    simp at hlen

end FileName

/-- The name that the `n`-th try gives. -/
def triedName (name : String) (n : Nat) : String :=
  if n = 0 then name else FileName.numbered name n

theorem candidate_eq (folder : Path) (name : String) (n : Nat) :
    candidate folder name n = folder.join (triedName name n) := rfl

theorem plain_triedName {name : String} (h : IsPlain name.toList) (n : Nat) :
    IsPlain (triedName name n).toList := by
  unfold triedName
  split
  · exact h
  · exact FileName.plain_numbered h n

theorem triedName_inj {name : String} (h : IsPlain name.toList) {n m : Nat}
    (he : triedName name n = triedName name m) : n = m := by
  unfold triedName at he
  split at he
  · rename_i hn
    split at he
    · rename_i hm
      rw [hn, hm]
    · exact absurd he.symm (FileName.numbered_ne h m)
  · split at he
    · exact absurd he (FileName.numbered_ne h n)
    · exact FileName.numbered_inj h he

/-! ### Free tries -/

/-- Of more than twice as many tries as there are claims, each of which rules out two at most, one
is free. -/
theorem exists_unclaimed {f g : Nat → List Component} (hf : ∀ n m, f n = f m → n = m)
    (hg : ∀ n m, g n = g m → n = m) (claims : Claims) :
    ∃ n ≤ 2 * claims.length, f n ∉ claims ∧ g n ∉ claims := by
  by_cases hall : ∀ n ≤ 2 * claims.length, f n ∈ claims ∨ g n ∈ claims
  · let hit := fun n => if f n ∈ claims then (true, f n) else (false, g n)
    have hinj : ∀ n m, hit n = hit m → n = m := by
      intro n m he
      by_cases hn : f n ∈ claims <;> by_cases hm : f m ∈ claims <;>
        simp only [hit, hn, hm, if_true, if_false, Prod.mk.injEq, reduceCtorEq, false_and,
          true_and] at he
      · exact hf n m he
      · exact hg n m he
    have hnodup : ((List.range (2 * claims.length + 1)).map hit).Nodup :=
      List.Pairwise.map hit (fun n m hne he => hne (hinj n m he)) List.nodup_range
    have hsubset : (List.range (2 * claims.length + 1)).map hit ⊆
        claims.map (true, ·) ++ claims.map (false, ·) := by
      intro x hx
      obtain ⟨n, hn, rfl⟩ := List.mem_map.mp hx
      have hle : n ≤ 2 * claims.length := Nat.le_of_lt_succ (List.mem_range.mp hn)
      by_cases hmem : f n ∈ claims
      · simp [hit, hmem]
      · simp [hit, hmem, (hall n hle).resolve_left hmem]
    have hlen := hnodup.length_le_of_subset hsubset
    simp only [List.length_map, List.length_range, List.length_append] at hlen
    omega
  · obtain ⟨n, hn⟩ := Classical.not_forall.mp hall
    obtain ⟨hle, hn⟩ := Classical.not_imp.mp hn
    exact ⟨n, hle, not_or.mp hn⟩

theorem Claims.free_iff (claims : Claims) (p : Path) :
    claims.free p = true ↔
      p.components ∉ claims ∧ (FileName.stagingPath p).components ∉ claims := by
  simp [free]

/-- Different tries are different paths. -/
theorem components_candidate_inj (folder : Path) {name : String} (h : IsPlain name.toList)
    {n m : Nat}
    (he : (candidate folder name n).components = (candidate folder name m).components) : n = m := by
  rw [candidate_eq, candidate_eq] at he
  exact triedName_inj h ((Path.sameAs_join folder (plain_triedName h n) (plain_triedName h m)).mp
    (beq_iff_eq.mpr he))

/-- Different tries have different staging paths. -/
theorem components_staging_inj (folder : Path) {name : String} (h : IsPlain name.toList) {n m : Nat}
    (he : (FileName.stagingPath (candidate folder name n)).components =
      (FileName.stagingPath (candidate folder name m)).components) : n = m := by
  rw [candidate_eq, candidate_eq, FileName.stagingPath_join folder (plain_triedName h n),
    FileName.stagingPath_join folder (plain_triedName h m)] at he
  have hpart := (Path.sameAs_join folder (FileName.plain_staged (plain_triedName h n))
    (FileName.plain_staged (plain_triedName h m))).mp (beq_iff_eq.mpr he)
  exact triedName_inj h (by simpa using hpart)

/-- One of the first tries is free. -/
theorem exists_free (claims : Claims) (folder : Path) {name : String} (h : IsPlain name.toList) :
    ∃ n ≤ 2 * claims.length, claims.free (candidate folder name n) = true := by
  obtain ⟨n, hn, hfree⟩ := exists_unclaimed
    (fun _ _ => components_candidate_inj folder h) (fun _ _ => components_staging_inj folder h)
    claims
  exact ⟨n, hn, (claims.free_iff _).mpr hfree⟩

/-- The search stops at the first free try there is. -/
theorem leastFreeFrom_spec (claims : Claims) (folder : Path) (name : String) (fuel n : Nat)
    (h : ∃ k, n ≤ k ∧ k ≤ n + fuel ∧ claims.free (candidate folder name k) = true) :
    ∃ k, n ≤ k ∧ k ≤ n + fuel ∧ leastFreeFrom claims folder name fuel n = candidate folder name k ∧
      claims.free (candidate folder name k) = true ∧
      ∀ j, n ≤ j → j < k → claims.free (candidate folder name j) = false := by
  induction fuel generalizing n with
  | zero =>
    obtain ⟨k, hnk, hkn, hfree⟩ := h
    obtain rfl : k = n := Nat.le_antisymm hkn hnk
    exact ⟨k, Nat.le_refl k, hkn, rfl, hfree, fun j hkj hjk => absurd hkj (Nat.not_le_of_lt hjk)⟩
  | succ fuel ih =>
    unfold leastFreeFrom
    by_cases hfree : claims.free (candidate folder name n) = true
    · rw [if_pos hfree]
      exact ⟨n, Nat.le_refl n, Nat.le_add_right _ _, rfl, hfree,
        fun j hnj hjn => absurd hnj (Nat.not_le_of_lt hjn)⟩
    · rw [if_neg hfree]
      obtain ⟨k, hnk, hkn, hk⟩ := h
      have hne : n ≠ k := fun he => hfree (he ▸ hk)
      obtain ⟨k, hnk, hkn, heq, hk, hleast⟩ := ih (n + 1) ⟨k, by omega, by omega, hk⟩
      refine ⟨k, by omega, by omega, heq, hk, fun j hnj hjk => ?_⟩
      by_cases hj : j = n
      · rw [hj]
        exact Bool.eq_false_iff.mpr hfree
      · exact hleast j (by omega) hjk

/-- **The least free try.** A path is found that nobody claims, and it is the first. -/
theorem leastFree_spec (claims : Claims) (folder : Path) {name : String}
    (h : IsPlain name.toList) :
    ∃ k ≤ 2 * claims.length, leastFree claims folder name = candidate folder name k ∧
      claims.free (candidate folder name k) = true ∧
      ∀ j < k, claims.free (candidate folder name j) = false := by
  obtain ⟨n, hn, hfree⟩ := exists_free claims folder h
  obtain ⟨k, -, hk, heq, hkfree, hleast⟩ := leastFreeFrom_spec claims folder name
    (2 * claims.length) 0 ⟨n, Nat.zero_le n, by omega, hfree⟩
  exact ⟨k, by omega, heq, hkfree, fun j hj => hleast j (Nat.zero_le j) hj⟩

/-! ### The files of a session -/

namespace Transfer

/-- No path of one transfer is a path of the other. -/
structure Apart (t u : Transfer) : Prop where
  finals : t.finalPath.components ≠ u.finalPath.components
  finalStaging : t.finalPath.components ≠ u.stagingPath.components
  stagingFinal : t.stagingPath.components ≠ u.finalPath.components
  stagings : t.stagingPath.components ≠ u.stagingPath.components

theorem Apart.symm {t u : Transfer} (h : t.Apart u) : u.Apart t :=
  ⟨h.finals.symm, h.stagingFinal.symm, h.finalStaging.symm, h.stagings.symm⟩

/-- An offered file is given paths that nobody claims. -/
theorem free_ofOffer (fileId : String) (offer : FileOffer) (folder : Path) (claims : Claims) :
    (ofOffer fileId offer folder claims).finalPath.components ∉ claims ∧
      (ofOffer fileId offer folder claims).stagingPath.components ∉ claims := by
  obtain ⟨k, -, heq, hfree, -⟩ := leastFree_spec claims folder
    (FileName.plain_sanitize (declaredNameOf fileId offer))
  rw [Claims.free_iff, ← heq] at hfree
  exact hfree

end Transfer

namespace Admission

theorem perm_ordered (manifest : Manifest) : (ordered manifest).Perm manifest :=
  List.mergeSort_perm manifest _

/-- A file that is accepted claims its paths. -/
theorem addFile_accepted {policy : Policy} {folder : Path} {a : Admission}
    {entry : String × FileOffer}
    (h : policy (Transfer.ofOffer entry.1 entry.2 folder a.claims) = true) :
    addFile policy folder a entry =
      { claims := a.claims.add (Transfer.ofOffer entry.1 entry.2 folder a.claims)
        accepted := Transfer.ofOffer entry.1 entry.2 folder a.claims :: a.accepted
        verdicts := (entry.1, true) :: a.verdicts } :=
  if_pos h

/-- A file that is refused leaves nothing but its verdict. -/
theorem addFile_refused {policy : Policy} {folder : Path} {a : Admission}
    {entry : String × FileOffer}
    (h : ¬ policy (Transfer.ofOffer entry.1 entry.2 folder a.claims) = true) :
    addFile policy folder a entry = { a with verdicts := (entry.1, false) :: a.verdicts } :=
  if_neg h

theorem verdicts_addFile (policy : Policy) (folder : Path) (a : Admission)
    (entry : String × FileOffer) :
    (addFile policy folder a entry).verdicts =
      (entry.1, policy (Transfer.ofOffer entry.1 entry.2 folder a.claims)) :: a.verdicts := by
  by_cases h : policy (Transfer.ofOffer entry.1 entry.2 folder a.claims) = true
  · rw [addFile_accepted h, h]
  · rw [addFile_refused h, Bool.eq_false_iff.mpr h]

/-- What holds before the first file of a manifest, and is kept by a decision about one, holds when
all have been decided about. -/
theorem ofManifest_induction {policy : Policy} {folder : Path} {manifest : Manifest}
    {P : Admission → Prop} (hstart : P {})
    (hadd : ∀ a entry, entry ∈ manifest → P a → P (addFile policy folder a entry)) :
    P (ofManifest policy folder manifest) :=
  List.foldlRecOn _ _ hstart fun a ha entry hmem =>
    hadd a entry ((perm_ordered manifest).mem_iff.mp hmem) ha

/-- The accepted files lie in the folder and stand apart, nothing has come of them, and their paths
are claimed. -/
structure Separate (folder : Path) (a : Admission) : Prop where
  lies : ∀ t ∈ a.accepted, ∃ name, t.LiesIn folder name
  unbegun : ∀ t ∈ a.accepted, t.received = 0
  claimed : ∀ t ∈ a.accepted,
    t.finalPath.components ∈ a.claims ∧ t.stagingPath.components ∈ a.claims
  apart : ∀ t ∈ a.accepted, ∀ u ∈ a.accepted, t = u ∨ t.Apart u

variable {folder : Path}

/-- A file stands apart from those that were accepted before it. -/
theorem Separate.apart_ofOffer {a : Admission} (h : a.Separate folder) (fileId : String)
    (offer : FileOffer) {u : Transfer} (hu : u ∈ a.accepted) :
    (Transfer.ofOffer fileId offer folder a.claims).Apart u := by
  obtain ⟨hfinal, hstaging⟩ := Transfer.free_ofOffer fileId offer folder a.claims
  obtain ⟨hufinal, hustaging⟩ := h.claimed u hu
  exact ⟨fun he => hfinal (he ▸ hufinal), fun he => hfinal (he ▸ hustaging),
    fun he => hstaging (he ▸ hufinal), fun he => hstaging (he ▸ hustaging)⟩

theorem Separate.addFile {a : Admission} (h : a.Separate folder) (policy : Policy)
    (entry : String × FileOffer) : (addFile policy folder a entry).Separate folder := by
  by_cases haccepted : policy (Transfer.ofOffer entry.1 entry.2 folder a.claims) = true
  · rw [addFile_accepted haccepted]
    refine ⟨fun t ht => ?_, fun t ht => ?_, fun t ht => ?_, fun t ht u hu => ?_⟩
    · rcases List.mem_cons.mp ht with rfl | ht
      · exact Transfer.exists_liesIn entry.1 entry.2 folder a.claims
      · exact h.lies t ht
    · rcases List.mem_cons.mp ht with rfl | ht
      · rfl
      · exact h.unbegun t ht
    · rcases List.mem_cons.mp ht with rfl | ht
      · simp [Claims.add]
      · obtain ⟨hfinal, hstaging⟩ := h.claimed t ht
        simp [Claims.add, hfinal, hstaging]
    · rcases List.mem_cons.mp ht with rfl | ht <;> rcases List.mem_cons.mp hu with rfl | hu
      · exact Or.inl rfl
      · exact Or.inr (h.apart_ofOffer entry.1 entry.2 hu)
      · exact Or.inr (h.apart_ofOffer entry.1 entry.2 ht).symm
      · exact h.apart t ht u hu
  · rw [addFile_refused haccepted]
    exact ⟨h.lies, h.unbegun, h.claimed, h.apart⟩

/-- **The accepted files of a manifest stand apart.** -/
theorem separate_ofManifest (policy : Policy) (folder : Path) (manifest : Manifest) :
    (ofManifest policy folder manifest).Separate folder :=
  ofManifest_induction ⟨nofun, nofun, nofun, nofun⟩ fun _ entry _ h => h.addFile policy entry

end Admission

end FileReceiver
