/-
# What becomes of a name

A name is made of what stands behind the last separator, without control
characters. If that can name a file and fits, it is the name; if it is too
long, the name is the longest start of it that fits, or the longest start
before a short extension, with the extension behind it
(`cut_keeps_most`).

A stored name passes all checks that are made of a declared one, but for one:
it is looked at for blanks before it is cut, not after. So it is kept when it
is stored again, unless it starts with as many blanks as there is room for and
has no short extension (`sanitize_again_iff`).

Key definitions: `FileName.LongestStart`, `FileName.IsLastPart`,
`FileName.IsCut`, `FileName.LosesText`.
Key theorems: `FileName.isCut_truncate`, `FileName.cut_keeps_most`,
`FileName.sanitizeChars_plain`, `FileName.sanitize_again_iff`.
-/
import Mathlib.Data.List.TakeWhile
import FileReceiver.Proofs.Lengths

namespace FileReceiver.FileName

open Text

variable {s : List Char}

/-! ### The longest start -/

/-- The longest start of a text that takes no more bytes than there is room for. -/
structure LongestStart (limit : Nat) (s start : List Char) : Prop where
  starts : start <+: s
  fits : utf8Length start ≤ limit
  longest : ∀ other, other <+: s → utf8Length other ≤ limit → other <+: start

theorem fit_longest {other : List Char} (s : List Char) (limit : Nat) (hstarts : other <+: s)
    (hfits : utf8Length other ≤ limit) : other <+: fit limit s := by
  induction s generalizing limit other with
  | nil => exact hstarts
  | cons c s ih =>
    cases other with
    | nil => exact List.nil_prefix
    | cons d other =>
      obtain ⟨rfl, hrest⟩ := List.cons_prefix_cons.mp hstarts
      rw [utf8Length_cons] at hfits
      have hroom : d.utf8Size ≤ limit := by omega
      rw [fit, if_pos hroom]
      exact (List.prefix_cons_inj d).mpr (ih (limit - d.utf8Size) hrest (by omega))

theorem longestStart_fit (limit : Nat) (s : List Char) : LongestStart limit s (fit limit s) :=
  ⟨fit_start s limit, utf8Length_fit_le s limit, fun _ => fit_longest s limit⟩

theorem LongestStart.eq_fit {limit : Nat} {start : List Char} (h : LongestStart limit s start) :
    start = fit limit s := by
  have hle : start <+: fit limit s := fit_longest s limit h.starts h.fits
  have hge : fit limit s <+: start :=
    h.longest _ (fit_start s limit) (utf8Length_fit_le s limit)
  exact hle.eq_of_length_le hge.length_le

/-! ### Cut names -/

/-- What a long name is cut to: a short extension is kept, and as much as there is room for of what
stands before it; without one, as much as there is room for. -/
structure IsCut (s cut : List Char) : Prop where
  extension : ∀ base extension, HasExtension s base extension →
    ∃ start, LongestStart (maxLength - utf8Length ('.' :: extension)) base start ∧
      cut = start ++ '.' :: extension
  bare : (∀ base extension, ¬ HasExtension s base extension) → LongestStart maxLength s cut

theorem isCut_truncate (s : List Char) : IsCut s (truncate s) where
  extension base extension h := by
    refine ⟨_, longestStart_fit _ base, ?_⟩
    exact truncate_extension h
  bare h := by
    rw [truncate_bare h]
    exact longestStart_fit maxLength s

/-! ### Reserved and special names -/

theorem utf8Length_le (s : List Char) : utf8Length s ≤ 4 * s.length := by
  induction s with
  | nil => exact Nat.zero_le _
  | cons c s ih =>
    have hc := c.utf8Size_le_four
    rw [utf8Length_cons, List.length_cons]
    omega

/-- Reserved names are short. -/
theorem isReserved_of_long (h : 16 < utf8Length s) : isReserved s = false := by
  rw [← Bool.not_eq_true]
  intro hreserved
  obtain ⟨name, hname, heq⟩ := List.any_eq_true.mp hreserved
  have hshort : ∀ name ∈ reservedNames, name.length ≤ 4 := by decide
  have hlength : s.length = name.length := by
    have hmap := congrArg List.length (beq_iff_eq.mp heq)
    simpa using hmap
  have hfour := hshort name hname
  have hbytes := utf8Length_le s
  omega

/-- A text that is too long can name a file unless it is blank. -/
theorem usable_of_long (hlong : maxLength < utf8Length s) (htext : s.all isBlank = false) :
    isReserved s = false ∧ isSpecial s = false := by
  have hlen : 255 < utf8Length s := hlong
  refine ⟨isReserved_of_long (by omega), isSpecial_eq_false.mpr ⟨?_, ?_, htext⟩⟩
  · rintro rfl
    exact absurd hlong (by decide)
  · rintro rfl
    exact absurd hlong (by decide)

/-- A text that is too long and not blank is cut. -/
theorem sanitizeChars_long (hlong : maxLength < utf8Length (cleanPart s))
    (htext : (cleanPart s).all isBlank = false) : sanitizeChars s = truncate (cleanPart s) := by
  obtain ⟨hreserved, hspecial⟩ := usable_of_long hlong htext
  rcases sanitizeChars_cases s with ⟨hname, -⟩ | ⟨-, -, ⟨-, hname⟩ | ⟨hshort, -⟩⟩
  · rw [hreserved, hspecial] at hname
    simp at hname
  · exact hname
  · omega

/-- A text that is short enough and can name a file is the name. -/
theorem sanitizeChars_short (hreserved : isReserved (cleanPart s) = false)
    (hspecial : isSpecial (cleanPart s) = false) (hshort : utf8Length (cleanPart s) ≤ maxLength) :
    sanitizeChars s = cleanPart s := by
  rcases sanitizeChars_cases s with ⟨hname, -⟩ | ⟨-, -, ⟨hlong, -⟩ | ⟨-, hname⟩⟩
  · rw [hreserved, hspecial] at hname
    simp at hname
  · omega
  · exact hname

/-! ### The part behind the last separator -/

/-- What stands behind the last separator of a text; all of it, if there is none. -/
structure IsLastPart (s part : List Char) : Prop where
  unseparated : ∀ c ∈ part, isSeparator c = false
  behind : part = s ∨
    ∃ folder separator, isSeparator separator = true ∧ s = folder ++ separator :: part

theorem lastPart_eq {part : List Char} (h : IsLastPart s part) : lastPart s = part := by
  have hall : ∀ c ∈ part, (!isSeparator c) = true := fun c hc => by
    rw [h.unseparated c hc]
    rfl
  unfold lastPart
  rcases h.behind with rfl | ⟨folder, separator, hsep, rfl⟩
  · have hwhole : part.reverse.takeWhile (fun c => !isSeparator c) = part.reverse :=
      List.takeWhile_eq_self_iff.mpr fun c hc => hall c (List.mem_reverse.mp hc)
    rw [hwhole, List.reverse_reverse]
  · rw [takeWhile_last (by simp [hsep]) folder hall, List.reverse_reverse]

/-- **As much as possible is kept of a name.** Let `clean` be what stands behind the last separator
of a declared name, without control characters. If it is too long and not blank, the stored name is
cut from it, so that three bytes at most are left over. If it fits and can name a file, it is the
stored name. -/
theorem cut_keeps_most {name : String} {part clean : List Char}
    (hpart : IsLastPart name.toList part) (hclean : clean = part.filter fun c => !isControl c) :
    (maxLength < utf8Length clean → clean.all isBlank = false →
        (sanitize name).toByteArray.IsValidUTF8 ∧ 252 ≤ (sanitize name).utf8ByteSize ∧
          (sanitize name).utf8ByteSize ≤ 255 ∧ IsCut clean (sanitize name).toList) ∧
      (utf8Length clean ≤ maxLength → clean.all isBlank = false → clean ≠ ['.'] →
        clean ≠ ['.', '.'] → isReserved clean = false → sanitize name = String.ofList clean) := by
  have hmade : cleanPart name.toList = clean := by rw [cleanPart, lastPart_eq hpart, hclean]
  constructor
  · intro hlong htext
    have hname : sanitizeChars name.toList = truncate clean := by
      rw [← hmade] at hlong htext ⊢
      exact sanitizeChars_long hlong htext
    have hleft := utf8Length_truncate hlong
    simp only [maxLength] at hleft
    refine ⟨(sanitize name).isValidUTF8, ?_, utf8ByteSize_sanitize name, ?_⟩
    · rw [sanitize, Text.utf8ByteSize_ofList, hname]
      omega
    · rw [sanitize, String.toList_ofList, hname]
      exact isCut_truncate clean
  · intro hshort htext hdot hdots hreserved
    have hspecial : isSpecial clean = false := isSpecial_eq_false.mpr ⟨hdots, hdot, htext⟩
    rw [← hmade] at hshort hreserved hspecial ⊢
    rw [sanitize, sanitizeChars_short hreserved hspecial hshort]

/-- A hundred crabs in two folders, with a control character and an extension behind them. -/
def crabs : List Char := List.replicate 100 '🦀' ++ '\x07' :: ".txt".toList

theorem crabs_cut :
    IsLastPart (String.ofList ("a/b\\".toList ++ crabs)).toList crabs ∧
      maxLength < utf8Length (crabs.filter fun c => !isControl c) ∧
      (crabs.filter fun c => !isControl c).all isBlank = false ∧
      252 ≤ (sanitize (String.ofList ("a/b\\".toList ++ crabs))).utf8ByteSize ∧
      ∃ start, LongestStart 251 (List.replicate 100 '🦀') start ∧
        (sanitize (String.ofList ("a/b\\".toList ++ crabs))).toList = start ++ ".txt".toList := by
  have hwhole : crabs.all (fun c => !isSeparator c) = true := by decide +kernel
  have hpart : IsLastPart (String.ofList ("a/b\\".toList ++ crabs)).toList crabs := by
    rw [String.toList_ofList]
    refine ⟨fun c hc => ?_, Or.inr ⟨"a/b".toList, '\\', rfl, rfl⟩⟩
    simpa using List.all_eq_true.mp hwhole c hc
  have hlong : maxLength < utf8Length (crabs.filter fun c => !isControl c) := by decide +kernel
  have htext : (crabs.filter fun c => !isControl c).all isBlank = false := by decide +kernel
  have hextension : HasExtension (crabs.filter fun c => !isControl c)
      (List.replicate 100 '🦀') "txt".toList :=
    ⟨by decide +kernel, by decide, by decide, by decide⟩
  obtain ⟨-, hsize, -, hcut⟩ := (cut_keeps_most hpart rfl).1 hlong htext
  exact ⟨hpart, hlong, htext, hsize, hcut.extension _ _ hextension⟩

/-! ### Storing a stored name -/

theorem sanitize_ofList (s : List Char) :
    sanitize (String.ofList s) = String.ofList (sanitizeChars s) := by
  rw [sanitize, String.toList_ofList]

theorem cleanPart_plain (h : IsPlain s) : cleanPart s = s := by
  have hpart : lastPart s = s := lastPart_eq ⟨fun c hc => (h.clean c hc).1, Or.inl rfl⟩
  rw [cleanPart, hpart, List.filter_eq_self]
  intro c hc
  rw [(h.clean c hc).2]
  rfl

/-- A plain name that fits is stored under itself, unless it is reserved or blank. -/
theorem sanitizeChars_plain (h : IsPlain s) (hreserved : isReserved s = false)
    (hfits : utf8Length s ≤ maxLength) :
    sanitizeChars s = if s.all isBlank then fallback else s := by
  have hclean := cleanPart_plain h
  by_cases hblank : s.all isBlank
  · rw [if_pos hblank]
    rcases sanitizeChars_cases s with ⟨-, hname⟩ | ⟨-, hspecial, -⟩
    · exact hname
    · rw [hclean, isSpecial_eq_false] at hspecial
      exact absurd hblank (by simp [hspecial.2.2])
  · rw [if_neg hblank]
    have hspecial : isSpecial s = false :=
      isSpecial_eq_false.mpr ⟨h.ne_dots, h.ne_dot, Bool.eq_false_iff.mpr hblank⟩
    have hname := sanitizeChars_short (s := s)
    rw [hclean] at hname
    exact hname hreserved hspecial hfits

theorem utf8Length_sanitizeChars (s : List Char) : utf8Length (sanitizeChars s) ≤ maxLength := by
  have hsize := utf8ByteSize_sanitize (String.ofList s)
  rwa [sanitize_ofList, Text.utf8ByteSize_ofList] at hsize

/-- No stored name is reserved. -/
theorem isReserved_sanitizeChars (s : List Char) : isReserved (sanitizeChars s) = false := by
  rcases sanitizeChars_cases s with
    ⟨-, hname⟩ | ⟨hreserved, -, ⟨hlong, hname⟩ | ⟨-, hname⟩⟩ <;> rw [hname]
  · decide
  · have hleft := utf8Length_truncate hlong
    simp only [maxLength] at hleft
    exact isReserved_of_long (by omega)
  · exact hreserved

/-- Cutting leaves nothing but blanks of a text that holds more: it is too long, it has no short
extension that would be kept, and as much of it as there is room for is blank. -/
structure LosesText (s : List Char) : Prop where
  long : maxLength < utf8Length s
  text : s.all isBlank = false
  bare : ∀ base extension, ¬ HasExtension s base extension
  blank : ∃ start, LongestStart maxLength s start ∧ start.all isBlank = true

/-- What is cut off with an extension is not blank, as the dot is none. -/
theorem IsCut.isBlank_iff {cut : List Char} (h : IsCut s cut) :
    cut.all isBlank = true ↔ (∀ base extension, ¬ HasExtension s base extension) ∧
      ∃ start, LongestStart maxLength s start ∧ start.all isBlank = true := by
  constructor
  · intro hblank
    have hbare : ∀ base extension, ¬ HasExtension s base extension := by
      intro base extension hextension
      obtain ⟨start, -, rfl⟩ := h.extension base extension hextension
      have hdot := List.all_eq_true.mp hblank '.' (by simp)
      exact absurd hdot (by decide)
    exact ⟨hbare, cut, h.bare hbare, hblank⟩
  · rintro ⟨hbare, start, hstart, hblank⟩
    rwa [(h.bare hbare).eq_fit, ← hstart.eq_fit]

/-- A stored name is blank just if its text was cut off. -/
theorem isBlank_sanitizeChars_iff (s : List Char) :
    (sanitizeChars s).all isBlank = true ↔ LosesText (cleanPart s) := by
  rcases sanitizeChars_cases s with
    ⟨hunfit, hname⟩ | ⟨-, hspecial, ⟨hlong, hname⟩ | ⟨hshort, hname⟩⟩ <;> rw [hname]
  · refine iff_of_false (by decide) fun h => ?_
    obtain ⟨hreserved, hspecial⟩ := usable_of_long h.long h.text
    rw [hreserved, hspecial] at hunfit
    simp at hunfit
  · have htext := (isSpecial_eq_false.mp hspecial).2.2
    rw [(isCut_truncate (cleanPart s)).isBlank_iff]
    exact ⟨fun h => ⟨hlong, htext, h.1, h.2⟩, fun h => ⟨h.bare, h.blank⟩⟩
  · have htext := (isSpecial_eq_false.mp hspecial).2.2
    rw [htext]
    exact iff_of_false (by decide) fun h => absurd h.long (Nat.not_lt_of_le hshort)

/-- **Stored names pass.** A stored name is one step of a path, is not reserved and fits. It is
blank just if its text was cut off, and just then it is not kept when it is stored again, but given
up for the fallback. -/
theorem sanitize_again_iff (name : String) :
    IsPlain (sanitize name).toList ∧ isReserved (sanitize name).toList = false ∧
      (sanitize name).utf8ByteSize ≤ maxLength ∧
      (isBlankText (sanitize name) = true ↔ LosesText (cleanPart name.toList)) ∧
      (sanitize (sanitize name) = sanitize name ↔ ¬ LosesText (cleanPart name.toList)) ∧
      (LosesText (cleanPart name.toList) → sanitize (sanitize name) = "unknown_file") := by
  have hplain := plain_sanitizeChars name.toList
  have hreserved := isReserved_sanitizeChars name.toList
  have hblank := isBlank_sanitizeChars_iff name.toList
  have hagain := sanitizeChars_plain hplain hreserved (utf8Length_sanitizeChars name.toList)
  have hstored : (sanitize name).toList = sanitizeChars name.toList := String.toList_ofList
  rw [isBlankText, hstored]
  refine ⟨hplain, hreserved, utf8ByteSize_sanitize name, hblank, ?_, fun hloses => ?_⟩
  · rw [← hblank, sanitize, hstored, hagain, sanitize, String.ofList_inj]
    split
    · rename_i h
      refine iff_of_false (fun he => ?_) (not_not_intro h)
      rw [← he] at h
      exact absurd h (by decide)
    · rename_i h
      exact iff_of_true rfl h
  · rw [sanitize, hstored, hagain, if_pos (hblank.mpr hloses)]
    rfl

/-- As many blanks as there is room for, with a letter behind them. -/
def paddedLetter : String := String.ofList (List.replicate 255 ' ' ++ ['a'])

theorem padded_letter_lost :
    sanitize paddedLetter = String.ofList (List.replicate 255 ' ') ∧
      isBlankText (sanitize paddedLetter) = true ∧
      sanitize (sanitize paddedLetter) = "unknown_file" ∧
      sanitize (sanitize paddedLetter) ≠ sanitize paddedLetter := by
  have hcut : sanitizeChars (List.replicate 255 ' ' ++ ['a']) = List.replicate 255 ' ' := by
    decide +kernel
  have hgiven : sanitizeChars (List.replicate 255 ' ') = fallback := by decide +kernel
  have hfirst : sanitize paddedLetter = String.ofList (List.replicate 255 ' ') :=
    (sanitize_ofList _).trans (congrArg String.ofList hcut)
  have hsecond : sanitize (sanitize paddedLetter) = "unknown_file" := by
    rw [hfirst, sanitize_ofList, hgiven]
    rfl
  refine ⟨hfirst, ?_, hsecond, ?_⟩
  · rw [hfirst, isBlankText, String.toList_ofList]
    decide +kernel
  · rw [hsecond, hfirst]
    decide +kernel

end FileReceiver.FileName
