/-
# Numbers in names

A second file of one name gets a number: before the extension if its name has
one, at its end if not. What has an extension is a name with a dot that is
not its first character, and the extension is what stands behind the last of
them (`FileName.HasParts`), which is what the paths of names say as well
(`FileName.extension?_eq_some_iff`).

A number does not change where the last dot stands with respect to what
follows it, so the extension stays, and a name without one gets none
(`FileName.extension?_numbered`). With that a numbered name is as good as the
name that it is made of, and another one for every number
(`FileName.numbering_faithful`).

Key definitions: `FileName.HasParts`, `FileName.IsNumbering`.
Key theorems: `FileName.hasParts_iff`, `FileName.extension?_numbered`,
`FileName.numbering_faithful`.
-/
import FileReceiver.Proofs.Claiming

namespace FileReceiver.FileName

variable {s stem extension : List Char} {name : String}

/-! ### The parts of a name -/

/-- A name with an extension: some text, the last dot, and what stands behind it. -/
structure HasParts (s stem extension : List Char) : Prop where
  split : s = stem ++ '.' :: extension
  last : '.' ∉ extension
  text : stem ≠ []

/-- A name is cut into its parts. -/
theorem hasParts_iff : HasParts s stem extension ↔ splitName s = (stem, some extension) := by
  constructor
  · intro h
    rw [h.split, splitName_lastDot stem h.last, if_neg h.text]
  · intro h
    by_cases hdot : '.' ∈ s
    · obtain ⟨u, v, rfl, hv⟩ := exists_lastDot hdot
      rw [splitName_lastDot u hv] at h
      split at h
      · cases h
      · rename_i hu
        cases h
        exact ⟨rfl, hv, hu⟩
    · rw [splitName_of_not_mem hdot] at h
      cases h

theorem HasParts.unique {stem' extension' : List Char} (h : HasParts s stem extension)
    (h' : HasParts s stem' extension') : stem = stem' ∧ extension = extension' := by
  rw [hasParts_iff] at h h'
  rw [h] at h'
  cases h'
  exact ⟨rfl, rfl⟩

/-- Text without a dot behind a name goes into the extension, if there is one. -/
theorem hasParts_append {t : List Char} (ht : '.' ∉ t) : HasParts (s ++ t) stem extension ↔
    ∃ shorter, extension = shorter ++ t ∧ HasParts s stem shorter := by
  constructor
  · intro h
    -- the last dot of all stands in the name
    have hdot : '.' ∈ s := by
      have hmem : '.' ∈ s ++ t := by
        rw [h.split]
        exact List.mem_append_right stem List.mem_cons_self
      exact (List.mem_append.mp hmem).resolve_right ht
    obtain ⟨u, v, rfl, hv⟩ := exists_lastDot hdot
    have hlast : '.' ∉ v ++ t := by
      rw [List.mem_append, not_or]
      exact ⟨hv, ht⟩
    have hparts := hasParts_iff.mp h
    rw [List.append_assoc, List.cons_append, splitName_lastDot u hlast] at hparts
    split at hparts
    · cases hparts
    · rename_i hu
      cases hparts
      exact ⟨v, rfl, rfl, hv, hu⟩
  · rintro ⟨shorter, rfl, h⟩
    refine ⟨by rw [h.split, List.append_assoc, List.cons_append], ?_, h.text⟩
    rw [List.mem_append, not_or]
    exact ⟨h.last, ht⟩

/-- The extension of a path that is a name is the one that its name has. -/
theorem extension?_eq_some_iff (h : IsPlain name.toList) {e : String} :
    (⟨name⟩ : Path).extension? = some e ↔ ∃ stem, HasParts name.toList stem e.toList := by
  have hfound : (⟨name⟩ : Path).extension? =
      (splitName name.toList).2.bind fun extension => some (String.ofList extension) := by
    rw [Path.extension?, Path.fileName?_plain h]
    rfl
  have hback (extension : List Char) : String.ofList extension = e ↔ extension = e.toList :=
    ⟨fun he => by rw [← he, String.toList_ofList], fun he => by rw [he, String.ofList_toList]⟩
  simp only [hasParts_iff, hfound]
  cases splitName name.toList with
  | mk stem extension => cases extension <;> simp [hback]

/-! ### Numbered names -/

theorem not_dot_digits (n : Nat) : '.' ∉ Nat.toDigits 10 n := fun h =>
  absurd (Nat.isDigit_of_mem_toDigits (by decide) (by decide) h) (by decide)

/-- The number stands before the extension. -/
theorem numbered_of_parts (h : IsPlain name.toList) (hp : HasParts name.toList stem extension)
    (n : Nat) :
    (numbered name n).toList = stem ++ '_' :: (Nat.toDigits 10 n ++ '.' :: extension) := by
  rw [hasParts_iff] at hp
  rcases numbered_cases h n with ⟨stem', extension', -, hs, hn⟩ | ⟨stem', hs, -⟩
  · rw [hp] at hs
    cases hs
    exact hn
  · rw [hp] at hs
    cases hs

/-- Without an extension the number stands at the end. -/
theorem numbered_of_bare (h : IsPlain name.toList)
    (hbare : ∀ stem extension, ¬ HasParts name.toList stem extension) (n : Nat) :
    (numbered name n).toList = name.toList ++ '_' :: Nat.toDigits 10 n := by
  rcases numbered_cases h n with ⟨stem', extension', -, hs, -⟩ | ⟨stem', -, hn⟩
  · exact absurd (hasParts_iff.mpr hs) (hbare stem' extension')
  · exact hn

/-- **Numbering changes no extension.** -/
theorem exists_parts_numbered (h : IsPlain name.toList) (n : Nat) :
    (∃ stem, HasParts (numbered name n).toList stem extension) ↔
      ∃ stem, HasParts name.toList stem extension := by
  by_cases hparts : ∃ stem extension, HasParts name.toList stem extension
  · obtain ⟨stem, old, hp⟩ := hparts
    have hnumbered : HasParts (numbered name n).toList (stem ++ '_' :: Nat.toDigits 10 n) old := by
      refine ⟨?_, hp.last, by simp⟩
      rw [numbered_of_parts h hp, List.append_assoc, List.cons_append]
    constructor
    · rintro ⟨stem', hp'⟩
      obtain ⟨-, rfl⟩ := hnumbered.unique hp'
      exact ⟨stem, hp⟩
    · rintro ⟨stem', hp'⟩
      obtain ⟨-, rfl⟩ := hp.unique hp'
      exact ⟨_, hnumbered⟩
  · have hbare : ∀ stem extension, ¬ HasParts name.toList stem extension :=
      fun stem extension hp => hparts ⟨stem, extension, hp⟩
    have hnodot : '.' ∉ '_' :: Nat.toDigits 10 n := by
      rw [List.mem_cons, not_or]
      exact ⟨by decide, not_dot_digits n⟩
    rw [numbered_of_bare h hbare]
    simp only [hasParts_append hnodot]
    constructor
    · rintro ⟨stem, shorter, -, hp⟩
      exact absurd hp (hbare stem shorter)
    · rintro ⟨stem, hp⟩
      exact absurd hp (hbare stem extension)

theorem extension?_numbered (h : IsPlain name.toList) (n : Nat) :
    (⟨numbered name n⟩ : Path).extension? = (⟨name⟩ : Path).extension? := by
  refine Option.ext fun e => ?_
  rw [extension?_eq_some_iff (plain_numbered h n), extension?_eq_some_iff h,
    exists_parts_numbered h n]

/-- A plain name is a path of one step. -/
theorem components_plain (h : IsPlain name.toList) :
    (⟨name⟩ : Path).components = [.name name] := by
  have hjoin : (⟨""⟩ : Path).join name = ⟨name⟩ := if_pos (Or.inr rfl)
  rw [← hjoin, Path.components_join ⟨""⟩ h]
  rfl

/-- What a number makes of a name: another name of one step, with the number before the extension
that stays, or at the end if there is none. -/
structure IsNumbering (name : String) (n : Nat) (other : String) : Prop where
  plain : IsPlain other.toList
  step : (⟨other⟩ : Path).components = [.name other]
  differs : other ≠ name
  extension : (⟨other⟩ : Path).extension? = (⟨name⟩ : Path).extension?
  parts : ∀ stem extension, HasParts name.toList stem extension →
    other.toList = stem ++ '_' :: (Nat.toDigits 10 n ++ '.' :: extension)
  bare : (∀ stem extension, ¬ HasParts name.toList stem extension) →
    other.toList = name.toList ++ '_' :: Nat.toDigits 10 n

/-- **Numbered names are as good as the names that they are made of.** Whatever a sender calls a
file, and whatever the number: numbering the name under which it would be stored gives another one
that is one step of a path again, without separators and control characters and with the same
extension, and different numbers give different names. -/
theorem numbering_faithful (declared : String) :
    (∀ n, IsNumbering (sanitize declared) n (numbered (sanitize declared) n)) ∧
      Function.Injective (numbered (sanitize declared)) := by
  have hplain := plain_sanitize declared
  refine ⟨fun n => ?_, fun n m hsame => numbered_inj hplain hsame⟩
  exact
    { plain := plain_numbered hplain n
      step := components_plain (plain_numbered hplain n)
      differs := numbered_ne hplain n
      extension := extension?_numbered hplain n
      parts := fun _ _ hp => numbered_of_parts hplain hp n
      bare := fun hbare => numbered_of_bare hplain hbare n }

example : ["archive.tar.gz", "notes", ".bashrc", "end."].map (numbered · 2) =
    ["archive.tar_2.gz", "notes_2", ".bashrc_2", "end_2."] := by decide +kernel

end FileReceiver.FileName
