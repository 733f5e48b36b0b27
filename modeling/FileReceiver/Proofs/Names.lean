/-
# Stored names are single steps

Whatever a sender calls a file, the name under which it is stored is one step
of a path: it is not empty, it is no dots, and it holds no separator of
either kind and no control character (`plain_sanitizeChars`). Numbering such a
name and putting the staging suffix behind it keep that (`plain_numbered`,
`IsPlain.append`). Cutting a long name leaves all but three of the bytes that
there is room for, so it never leaves a dot or nothing
(`utf8Length_truncate`).

Key definitions: `FileName.IsPlain`, `FileName.HasExtension`, `FileName.cleanPart`.
Key theorems: `FileName.sanitizeChars_cases`, `FileName.plain_sanitizeChars`,
`FileName.splitName_some`, `FileName.utf8Length_truncate`.
-/
import FileReceiver.FileName

namespace FileReceiver.FileName

open Text

/-- A name that is one step of a path, without separators and control characters. -/
structure IsPlain (s : List Char) : Prop where
  ne_nil : s ≠ []
  ne_dot : s ≠ ['.']
  ne_dots : s ≠ ['.', '.']
  clean : ∀ c ∈ s, isSeparator c = false ∧ isControl c = false

variable {s : List Char}

theorem IsPlain.not_slash (h : IsPlain s) : '/' ∉ s :=
  fun hm => absurd (h.clean _ hm).1 (by decide)

/-- Text of more than two bytes is neither empty nor dots. -/
theorem IsPlain.of_length (hlen : 2 < utf8Length s)
    (hclean : ∀ c ∈ s, isSeparator c = false ∧ isControl c = false) : IsPlain s where
  ne_nil := by rintro rfl; simp [utf8Length] at hlen
  ne_dot := by rintro rfl; exact absurd hlen (by decide)
  ne_dots := by rintro rfl; exact absurd hlen (by decide)
  clean := hclean

/-- Text that holds anything but dots is neither empty nor dots. -/
theorem IsPlain.of_mem {c : Char} (hc : c ∈ s) (hdot : c ≠ '.')
    (hclean : ∀ c ∈ s, isSeparator c = false ∧ isControl c = false) : IsPlain s where
  ne_nil := by rintro rfl; cases hc
  ne_dot := by rintro rfl; simp_all
  ne_dots := by rintro rfl; simp_all
  clean := hclean

/-- What is put behind a plain name keeps it plain, if it holds anything but dots. -/
theorem IsPlain.append {t : List Char} (h : IsPlain s) (ht : IsPlain t) {c : Char} (hc : c ∈ t)
    (hdot : c ≠ '.') : IsPlain (s ++ t) := by
  refine .of_mem (List.mem_append_right s hc) hdot fun c hc => ?_
  rcases List.mem_append.mp hc with hc | hc
  · exact h.clean c hc
  · exact ht.clean c hc

/-- That a given name is clean can be computed. -/
theorem clean_of_all (h : s.all (fun c => !isSeparator c && !isControl c) = true) :
    ∀ c ∈ s, isSeparator c = false ∧ isControl c = false := by
  simpa using h

theorem plain_fallback : IsPlain fallback where
  ne_nil := by decide
  ne_dot := by decide
  ne_dots := by decide
  clean := clean_of_all (by decide)

/-! ### Cutting -/

theorem fit_start (s : List Char) (limit : Nat) : fit limit s <+: s := by
  induction s generalizing limit with
  | nil => exact List.prefix_rfl
  | cons c s ih =>
    unfold fit
    split
    · exact (List.prefix_cons_inj c).mpr (ih _)
    · exact List.nil_prefix

/-- What is cut leaves no room for another character of four bytes. -/
theorem lt_utf8Length_fit (s : List Char) (limit : Nat) (h : limit < utf8Length s) :
    limit < utf8Length (fit limit s) + 4 := by
  induction s generalizing limit with
  | nil => simp [utf8Length] at h
  | cons c s ih =>
    rw [utf8Length_cons] at h
    unfold fit
    split
    · rename_i hc
      have := ih (limit - c.utf8Size) (by omega)
      rw [utf8Length_cons]
      omega
    · have := c.utf8Size_le_four
      omega

/-! ### The last dot -/

theorem exists_lastDot (h : '.' ∈ s) : ∃ u v, s = u ++ '.' :: v ∧ '.' ∉ v := by
  obtain ⟨v, u, hrev, hv⟩ := List.eq_append_cons_of_mem (List.mem_reverse.mpr h)
  refine ⟨u.reverse, v.reverse, ?_, by simpa using hv⟩
  rw [← List.reverse_reverse s, hrev]
  simp

/-- Going back from the end, one meets what stands behind the last character of a kind. -/
theorem takeWhile_last {p : Char → Bool} {c : Char} (hc : p c = false) (u : List Char)
    {v : List Char} (hv : ∀ d ∈ v, p d = true) : (u ++ c :: v).reverse.takeWhile p = v.reverse := by
  have hall : ∀ d ∈ v.reverse, p d = true := fun d hd => hv d (List.mem_reverse.mp hd)
  have hrev : (u ++ c :: v).reverse = v.reverse ++ c :: u.reverse := by simp
  rw [hrev, List.takeWhile_append_of_pos hall]
  simp [hc]

theorem takeWhile_notDot (u : List Char) {v : List Char} (hv : '.' ∉ v) :
    (u ++ '.' :: v).reverse.takeWhile (· != '.') = v.reverse := by
  refine takeWhile_last (by simp) u fun c hc => ?_
  rw [bne_iff_ne]
  rintro rfl
  exact hv hc

theorem dropWhile_notDot (u : List Char) {v : List Char} (hv : '.' ∉ v) :
    (u ++ '.' :: v).reverse.dropWhile (· != '.') = '.' :: u.reverse := by
  have hall : ∀ c ∈ v.reverse, (c != '.') = true := fun c hc => by
    rw [bne_iff_ne]
    rintro rfl
    exact hv (List.mem_reverse.mp hc)
  have hrev : (u ++ '.' :: v).reverse = v.reverse ++ '.' :: u.reverse := by simp
  rw [hrev, List.dropWhile_append_of_pos hall]
  simp

theorem splitLastDot_lastDot (u : List Char) {v : List Char} (hv : '.' ∉ v) :
    splitLastDot (u ++ '.' :: v) = some (u, '.' :: v) := by
  have hdot : (u ++ '.' :: v).contains '.' = true := by simp
  simp only [splitLastDot, hdot, if_true, takeWhile_notDot u hv, List.reverse_reverse]
  have hlen : (u ++ '.' :: v).length - v.length - 1 = u.length := by
    simp only [List.length_append, List.length_cons]
    omega
  rw [hlen, List.take_left]

theorem splitLastDot_of_not_mem (h : '.' ∉ s) : splitLastDot s = none := by
  simp [splitLastDot, h]

theorem splitName_lastDot (u : List Char) {v : List Char} (hv : '.' ∉ v) :
    splitName (u ++ '.' :: v) =
      if u = [] then (u ++ '.' :: v, none) else (u, some v) := by
  simp only [splitName, takeWhile_notDot u hv, dropWhile_notDot u hv, List.reverse_reverse]
  have hbefore : ('.' :: u.reverse).reverse.dropLast = u := by simp
  rw [hbefore]
  cases u <;> rfl

theorem splitName_of_not_mem (h : '.' ∉ s) : splitName s = (s, none) := by
  have hall : ∀ c ∈ s.reverse, (c != '.') = true := fun c hc => by
    rw [bne_iff_ne]
    rintro rfl
    exact h (List.mem_reverse.mp hc)
  have hdrop : (s.reverse ++ []).dropWhile (· != '.') = [].dropWhile (· != '.') :=
    List.dropWhile_append_of_pos hall
  rw [List.append_nil] at hdrop
  simp [splitName, hdrop]

/-- A name with an extension is its two parts with a dot between them. -/
theorem splitName_some {stem extension : List Char}
    (h : splitName s = (stem, some extension)) : s = stem ++ '.' :: extension := by
  by_cases hdot : '.' ∈ s
  · obtain ⟨u, v, rfl, hv⟩ := exists_lastDot hdot
    rw [splitName_lastDot u hv] at h
    split at h
    · cases h
    · cases h; rfl
  · rw [splitName_of_not_mem hdot] at h
    cases h

/-! ### Cutting a name -/

/-- A name with a short extension: what stands before its last dot, which is some text, and what
stands behind it. -/
structure HasExtension (s base extension : List Char) : Prop where
  split : s = base ++ '.' :: extension
  last : '.' ∉ extension
  text : base ≠ []
  short : utf8Length ('.' :: extension) < longExtension

/-- A name with a short extension is cut before it. -/
theorem truncate_extension {base extension : List Char} (h : HasExtension s base extension) :
    truncate s =
      fit (maxLength - utf8Length ('.' :: extension)) base ++ '.' :: extension := by
  unfold truncate
  rw [h.split, splitLastDot_lastDot base h.last]
  simp only
  rw [if_pos ⟨h.text, h.short⟩]

/-- Any other name is cut at its end. -/
theorem truncate_bare (h : ∀ base extension, ¬ HasExtension s base extension) :
    truncate s = fit maxLength s := by
  unfold truncate
  by_cases hdot : '.' ∈ s
  · obtain ⟨u, v, rfl, hv⟩ := exists_lastDot hdot
    rw [splitLastDot_lastDot u hv]
    simp only
    exact if_neg fun hshort => h u v ⟨rfl, hv, hshort.1, hshort.2⟩
  · rw [splitLastDot_of_not_mem hdot]

/-- A cut name is a start of the name, or a start of what stands before the extension and the
extension. -/
theorem truncate_cases (s : List Char) :
    truncate s = fit maxLength s ∨
      ∃ base extension, s = base ++ extension ∧ utf8Length extension < longExtension ∧
        truncate s = fit (maxLength - utf8Length extension) base ++ extension := by
  by_cases hextension : ∃ base extension, HasExtension s base extension
  · obtain ⟨base, extension, h⟩ := hextension
    exact Or.inr ⟨base, '.' :: extension, h.split, h.short, truncate_extension h⟩
  · exact Or.inl (truncate_bare fun base extension h => hextension ⟨base, extension, h⟩)

theorem mem_of_mem_truncate {c : Char} (h : c ∈ truncate s) : c ∈ s := by
  rcases truncate_cases s with hs | ⟨base, extension, rfl, -, hs⟩
  · rw [hs] at h
    exact (fit_start s maxLength).subset h
  · rw [hs] at h
    rcases List.mem_append.mp h with h | h
    · exact List.mem_append_left _ ((fit_start base _).subset h)
    · exact List.mem_append_right _ h

/-- Cutting a long name leaves room for three bytes at most. -/
theorem utf8Length_truncate (h : maxLength < utf8Length s) :
    maxLength < utf8Length (truncate s) + 4 := by
  rcases truncate_cases s with hs | ⟨base, extension, rfl, hshort, hs⟩
  · rw [hs]
    exact lt_utf8Length_fit s maxLength h
  · rw [utf8Length_append] at h
    rw [hs, utf8Length_append]
    simp only [maxLength, longExtension] at h hshort ⊢
    have := lt_utf8Length_fit base (255 - utf8Length extension) (by omega)
    omega

/-! ### Names of files -/

theorem lastPart_clean {c : Char} (h : c ∈ lastPart s) : isSeparator c = false := by
  have hall := List.all_takeWhile (p := fun c => !isSeparator c) (l := s.reverse)
  rw [List.all_eq_true] at hall
  simpa using hall c (List.mem_reverse.mp h)

/-- What a name is made of: the part behind the last separator, without control characters. -/
def cleanPart (s : List Char) : List Char :=
  (lastPart s).filter fun c => !isControl c

theorem cleanPart_clean (s : List Char) :
    ∀ c ∈ cleanPart s, isSeparator c = false ∧ isControl c = false := by
  intro c hc
  rw [cleanPart, List.mem_filter] at hc
  exact ⟨lastPart_clean hc.1, by simpa using hc.2⟩

theorem isSpecial_eq_false :
    isSpecial s = false ↔ s ≠ ['.', '.'] ∧ s ≠ ['.'] ∧ s.all isBlank = false := by
  simp only [isSpecial, Bool.or_eq_false_iff, beq_eq_false_iff_ne, ne_eq, and_assoc]

/-- A stored name is the fallback, or what the name is made of, cut if it is too long. -/
theorem sanitizeChars_cases (s : List Char) :
    ((isReserved (cleanPart s) = true ∨ isSpecial (cleanPart s) = true) ∧
        sanitizeChars s = fallback) ∨
      (isReserved (cleanPart s) = false ∧ isSpecial (cleanPart s) = false ∧
        ((maxLength < utf8Length (cleanPart s) ∧ sanitizeChars s = truncate (cleanPart s)) ∨
          (utf8Length (cleanPart s) ≤ maxLength ∧ sanitizeChars s = cleanPart s))) := by
  have hname : sanitizeChars s =
      if isReserved (cleanPart s) || isSpecial (cleanPart s) then fallback
      else if maxLength < utf8Length (cleanPart s) then truncate (cleanPart s)
      else cleanPart s := rfl
  rw [hname]
  by_cases hfit : isReserved (cleanPart s) || isSpecial (cleanPart s)
  · rw [if_pos hfit]
    exact Or.inl ⟨Bool.or_eq_true_iff.mp hfit, rfl⟩
  rw [if_neg hfit]
  rw [Bool.not_eq_true, Bool.or_eq_false_iff] at hfit
  refine Or.inr ⟨hfit.1, hfit.2, ?_⟩
  by_cases hlong : maxLength < utf8Length (cleanPart s)
  · exact Or.inl ⟨hlong, if_pos hlong⟩
  · exact Or.inr ⟨Nat.le_of_not_lt hlong, if_neg hlong⟩

/-- **Stored names are plain.** -/
theorem plain_sanitizeChars (s : List Char) : IsPlain (sanitizeChars s) := by
  have hclean := cleanPart_clean s
  rcases sanitizeChars_cases s with
    ⟨-, hname⟩ | ⟨-, hspecial, ⟨hlong, hname⟩ | ⟨-, hname⟩⟩
  · rw [hname]
    exact plain_fallback
  · have hlen := utf8Length_truncate hlong
    simp only [maxLength] at hlen
    rw [hname]
    exact .of_length (by omega) fun c hc => hclean c (mem_of_mem_truncate hc)
  · obtain ⟨hdots, hdot, htext⟩ := isSpecial_eq_false.mp hspecial
    rw [hname]
    exact ⟨fun h => by simp [h] at htext, hdot, hdots, hclean⟩

theorem plain_sanitize (name : String) : IsPlain (sanitize name).toList := by
  rw [sanitize, String.toList_ofList]
  exact plain_sanitizeChars name.toList

end FileReceiver.FileName
