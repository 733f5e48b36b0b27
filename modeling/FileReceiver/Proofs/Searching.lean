/-
# The search for a free name

A name that clashes is tried again with the numbers 1, 2 and so on, until
neither the path that the try gives nor its staging path is claimed. Nothing
bounds this search (`Search`). It ends all the same: no two tries are the same
path, so each claimed path rules out two tries at most, and of the first
`2 * n + 1` tries, if `n` paths are claimed, one is free. It ends at the least
free number, which is where a transfer gets its path from (`search_ends`).

Key definitions: `Search`, `IsLeastFree`.
Key theorems: `Search.ends_least`, `Search.of_least`, `search_ends`.
-/
import Mathlib.Data.Finset.Card
import FileReceiver.Proofs.Claiming

namespace FileReceiver

/-- The search for a free try from the `n`-th on, one after the other: it looks at so many of them,
and the last one, the `k`-th, is free. -/
inductive Search (claims : Claims) (folder : Path) (name : String) : (n tries k : Nat) → Prop
  | found {n : Nat} (free : claims.free (candidate folder name n) = true) :
      Search claims folder name n 1 n
  | claimed {n tries k : Nat} (taken : claims.free (candidate folder name n) = false)
      (rest : Search claims folder name (n + 1) tries k) :
      Search claims folder name n (tries + 1) k

/-- The least number whose try nobody claims, neither where the file will stand nor where it is
staged. -/
structure IsLeastFree (claims : Claims) (folder : Path) (name : String) (n : Nat) : Prop where
  final : (candidate folder name n).components ∉ claims
  staging : (FileName.stagingPath (candidate folder name n)).components ∉ claims
  least : ∀ j < n, (candidate folder name j).components ∈ claims ∨
    (FileName.stagingPath (candidate folder name j)).components ∈ claims

variable {claims : Claims} {folder : Path} {name : String} {n tries k : Nat}

/-- A search goes past claimed tries only, and one after the other. -/
theorem Search.ends_least (h : Search claims folder name n tries k) :
    n ≤ k ∧ k + 1 = n + tries ∧ claims.free (candidate folder name k) = true ∧
      ∀ j, n ≤ j → j < k → claims.free (candidate folder name j) = false := by
  induction h with
  | found free =>
    refine ⟨Nat.le_refl _, rfl, free, ?_⟩
    intro j hnj hjn
    omega
  | @claimed n tries k taken rest ih =>
    obtain ⟨hle, hcount, hfree, hleast⟩ := ih
    refine ⟨by omega, by omega, hfree, ?_⟩
    intro j hnj hjk
    by_cases hj : j = n
    · rw [hj]
      exact taken
    · exact hleast j (by omega) hjk

/-- The first free try is found. -/
theorem Search.of_least (hfree : claims.free (candidate folder name (n + k)) = true)
    (hleast : ∀ j, n ≤ j → j < n + k → claims.free (candidate folder name j) = false) :
    Search claims folder name n (k + 1) (n + k) := by
  induction k generalizing n with
  | zero => exact .found hfree
  | succ k ih =>
    have hnext : n + (k + 1) = n + 1 + k := by omega
    rw [hnext] at hfree hleast ⊢
    have htaken := hleast n (Nat.le_refl n) (by omega)
    exact .claimed htaken (ih hfree fun j hnj hjk => hleast j (by omega) hjk)

/-- Two searches from the same try on look at the same tries. -/
theorem Search.unique {tries' k' : Nat} (h : Search claims folder name n tries k)
    (h' : Search claims folder name n tries' k') : tries = tries' ∧ k = k' := by
  obtain ⟨hle, hcount, hfree, hleast⟩ := h.ends_least
  obtain ⟨hle', hcount', hfree', hleast'⟩ := h'.ends_least
  have hk : k = k' := by
    rcases Nat.lt_trichotomy k k' with hlt | heq | hlt
    · have htaken := hleast' k hle hlt
      simp [hfree] at htaken
    · exact heq
    · have htaken := hleast k' hle' hlt
      simp [hfree'] at htaken
  exact ⟨by omega, hk⟩

theorem Claims.free_eq_false_iff (claims : Claims) (p : Path) :
    claims.free p = false ↔
      p.components ∈ claims ∨ (FileName.stagingPath p).components ∈ claims := by
  rw [← Bool.not_eq_true, free_iff]
  tauto

theorem isLeastFree_of_free (hfree : claims.free (candidate folder name n) = true)
    (hleast : ∀ j < n, claims.free (candidate folder name j) = false) :
    IsLeastFree claims folder name n := by
  obtain ⟨hfinal, hstaging⟩ := (claims.free_iff _).mp hfree
  refine ⟨hfinal, hstaging, ?_⟩
  intro j hj
  exact (claims.free_eq_false_iff _).mp (hleast j hj)

/-- A path that is claimed twice rules out no more tries than one that is claimed once. -/
theorem exists_free_card (claims : Claims) (folder : Path)
    (h : FileName.IsPlain name.toList) :
    ∃ n ≤ 2 * claims.toFinset.card, claims.free (candidate folder name n) = true := by
  obtain ⟨n, hn, hfree⟩ := exists_free claims.dedup folder h
  rw [Claims.free_iff, List.mem_dedup, List.mem_dedup] at hfree
  rw [List.card_toFinset]
  exact ⟨n, hn, (claims.free_iff _).mpr hfree⟩

/-- **The search ends at the least free number.** Whatever is claimed, the search for a path of a
declared name ends, in one way only, after at most one try more than twice the number of claimed
paths. It ends at the least number whose try is free, and there the transfer will stand; so a name
that nobody claims is kept. -/
theorem search_ends (claims : Claims) (folder : Path) (declared : String) :
    ∃ n, Search claims folder (FileName.sanitize declared) 0 (n + 1) n ∧
      (∀ tries k, Search claims folder (FileName.sanitize declared) 0 tries k →
        tries = n + 1 ∧ k = n) ∧
      n + 1 ≤ 2 * claims.toFinset.card + 1 ∧
      IsLeastFree claims folder (FileName.sanitize declared) n ∧
      leastFree claims folder (FileName.sanitize declared) =
        candidate folder (FileName.sanitize declared) n ∧
      (∀ fileId offer, Transfer.declaredNameOf fileId offer = declared →
        (Transfer.ofOffer fileId offer folder claims).finalPath =
          candidate folder (FileName.sanitize declared) n) ∧
      (claims.free (folder.join (FileName.sanitize declared)) = true →
        leastFree claims folder (FileName.sanitize declared) =
          folder.join (FileName.sanitize declared)) := by
  have hplain := FileName.plain_sanitize declared
  obtain ⟨n, -, hpath, hfree, hleast⟩ := leastFree_spec claims folder hplain
  have hsearch : Search claims folder (FileName.sanitize declared) 0 (n + 1) (0 + n) := by
    refine Search.of_least ?_ ?_
    · rw [Nat.zero_add]
      exact hfree
    · intro j _ hj
      rw [Nat.zero_add] at hj
      exact hleast j hj
  rw [Nat.zero_add] at hsearch
  have hbound : n ≤ 2 * claims.toFinset.card := by
    obtain ⟨m, hm, hfreem⟩ := exists_free_card claims folder hplain
    have hle : n ≤ m := by
      by_contra hlt
      have htaken := hleast m (by omega)
      simp [hfreem] at htaken
    omega
  refine ⟨n, hsearch, ?_, by omega, isLeastFree_of_free hfree hleast, hpath, ?_, ?_⟩
  · intro tries k h
    exact h.unique hsearch
  · rintro fileId offer rfl
    exact hpath
  · intro hkept
    have hzero : n = 0 := by
      by_contra hpos
      have htaken := hleast 0 (by omega)
      simp [candidate, hkept] at htaken
    rw [hpath, hzero]
    rfl

end FileReceiver
