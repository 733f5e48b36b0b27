/-
# The grammar of documents

What a JSON text is, told without a reader: words, strings and numbers, and
lists and objects of members between which commas stand, with blanks between
any two tokens (`IsValue`). A value that nobody asked for is passed over
exactly to its end if it follows this grammar, however deep it is nested,
however large its numbers are and whatever its escapes mean
(`IsValue.skipValue`). The induction is on the grammar; it counts the stages
of the reader, of which there are less than two for each byte, so that the
count with which the reader starts is enough.

Key definitions: `Json.AllBlank`, `Json.IsStringBody`, `Json.IsNumber`,
`Json.Member`, `Json.Container.chars`, `Json.IsValue`, `Json.Passes`.
Key theorems: `Json.skipString_body`, `Json.skipNumber_tail`,
`Json.IsValue.passes`, `Json.IsValue.skipValue`.
-/
import FileReceiver.Proofs.Tokens

namespace FileReceiver.Json

open Text (encoded)

/-! ### Blanks -/

/-- The blanks that may stand between tokens. -/
def AllBlank (s : List Char) : Prop :=
  ∀ c ∈ s, c ∈ [' ', '\n', '\t', '\x0d']

theorem allBlank_nil : AllBlank [] := fun _ hc => absurd hc List.not_mem_nil

theorem blank_back : ∀ c ∈ [' ', '\n', '\t', '\x0d'], c.toNat < 128 ∧
    isBlankByte (code c) = true ∧ isDigitByte (code c) = false ∧ code c ≠ code '.' ∧
      code c ≠ code 'e' ∧ code c ≠ code 'E' := by
  simp only [List.mem_cons, List.not_mem_nil, or_false]
  rintro c (rfl | rfl | rfl | rfl) <;> decide

theorem AllBlank.isBlankByte {s : List Char} (h : AllBlank s) :
    ∀ b ∈ encoded s, isBlankByte b = true := by
  have hascii : ∀ c ∈ s, c.toNat < 128 := fun c hc => (blank_back c (h c hc)).1
  intro b hb
  rw [Text.encoded_ascii hascii] at hb
  obtain ⟨c, hc, rfl⟩ := List.mem_map.mp hb
  exact (blank_back c (h c hc)).2.1

theorem skipBlanks_append {s : List Char} (h : AllBlank s) (input : List UInt8) :
    skipBlanks (encoded s ++ input) = skipBlanks input :=
  List.dropWhile_append_of_pos h.isBlankByte

theorem skipBlanks_cons {b : UInt8} (h : isBlankByte b = false) (rest : List UInt8) :
    skipBlanks (b :: rest) = b :: rest :=
  List.dropWhile_cons_of_neg (by rw [h]; exact Bool.false_ne_true)

theorem skipBlanks_skipBlanks (input : List UInt8) :
    skipBlanks (skipBlanks input) = skipBlanks input := by
  induction input with
  | nil => rfl
  | cons b rest ih =>
    cases hb : isBlankByte b with
    | true =>
      have hskip : skipBlanks (b :: rest) = skipBlanks rest := List.dropWhile_cons_of_pos hb
      rw [hskip, ih]
    | false => rw [skipBlanks_cons hb, skipBlanks_cons hb]

/-- Blanks stop a number, if what follows them does. -/
theorem AllBlank.stops {s : List Char} (h : AllBlank s) {rest : List UInt8} (hrest : Stops rest) :
    Stops (encoded s ++ rest) := by
  cases s with
  | nil => exact hrest
  | cons c s =>
    obtain ⟨hascii, -, hdigit, hpoint, hexponent⟩ := blank_back c (h c List.mem_cons_self)
    rw [Text.encoded_cons_ascii hascii]
    exact ⟨hdigit, hpoint, hexponent⟩

/-! ### Strings -/

/-- What may stand between the quotes of a string, whatever it means. -/
inductive IsStringBody : List Char → Prop
  | nil : IsStringBody []
  | plain {c : Char} {w : List Char} (hquote : c ≠ '"') (hslash : c ≠ '\\')
      (hcontrol : ¬ c.toNat < 0x20) (h : IsStringBody w) : IsStringBody (c :: w)
  | letter {l : Char} {w : List Char} (hletter : l ∈ letterEscapes.map (·.2))
      (h : IsStringBody w) : IsStringBody ('\\' :: l :: w)
  | code {a b c d : Char} {n : Nat} {w : List Char} (hcode : hexCode? [a, b, c, d] = some n)
      (h : IsStringBody w) : IsStringBody ('\\' :: 'u' :: a :: b :: c :: d :: w)

theorem skipStringFrom_plain {bytes : List UInt8}
    (h : ∀ b ∈ bytes, b ≠ code '"' ∧ b ≠ code '\\' ∧ ¬ b < 0x20) (rest : List UInt8) :
    skipStringFrom .text (bytes ++ rest) = skipStringFrom .text rest := by
  induction bytes with
  | nil => rfl
  | cons b bytes ih =>
    obtain ⟨hquote, hslash, hcontrol⟩ := h b List.mem_cons_self
    rw [List.cons_append, skipStringFrom, if_neg hquote, if_neg hslash, if_neg hcontrol]
    exact ih fun b' hb' => h b' (List.mem_cons_of_mem _ hb')

/-- The digits of an escape are passed over. -/
theorem skipStringFrom_digit {c : Char} {v : Nat} (h : Text.hexValue? c = some v)
    (rest : List UInt8) :
    (∀ left, skipStringFrom (.hex (left + 1) true) (code c :: rest) =
      skipStringFrom (.hex left true) rest) ∧
      skipStringFrom (.hex 0 true) (code c :: rest) = skipStringFrom .text rest := by
  have hvalid : (Text.hexValue? (Char.ofNat (code c).toNat)).isSome = true := by
    rw [code, Text.ofNat_toUInt8 (Text.hexValue?_ascii h), h]
    rfl
  simp only [skipStringFrom, hvalid, Bool.and_self, if_true, implies_true, and_self]

/-- **A string is passed over** up to its closing quote. -/
theorem skipString_body {w : List Char} (h : IsStringBody w) (rest : List UInt8) :
    skipString (encoded w ++ code '"' :: rest) = .ok rest := by
  have hslash (input : List UInt8) :
      skipStringFrom .text (code '\\' :: input) = skipStringFrom .escape input := rfl
  unfold skipString
  induction h with
  | nil => rfl
  | plain hquote hslash hcontrol _ ih =>
    rw [Text.encoded_cons, List.append_assoc,
      skipStringFrom_plain (utf8EncodeChar_unescaped hquote hslash hcontrol), ih]
  | letter hletter _ ih =>
    obtain ⟨e, he, rfl⟩ := List.mem_map.mp hletter
    obtain ⟨hascii, hu, hplain, -⟩ := letterEscapes_back e he
    rw [Text.encoded_cons_ascii (by decide), Text.encoded_cons_ascii hascii]
    refine (hslash _).trans ?_
    change skipStringFrom .escape (code e.2 :: _) = _
    rw [skipStringFrom, if_neg hu, hplain]
    exact ih
  | code hcode _ ih =>
    obtain ⟨i, j, k, l, hi, hj, hk, hl, -⟩ := hexCode?_four hcode
    rw [Text.encoded_cons_ascii (by decide), Text.encoded_cons_ascii (by decide),
      Text.encoded_cons_ascii (Text.hexValue?_ascii hi),
      Text.encoded_cons_ascii (Text.hexValue?_ascii hj),
      Text.encoded_cons_ascii (Text.hexValue?_ascii hk),
      Text.encoded_cons_ascii (Text.hexValue?_ascii hl)]
    refine (hslash _).trans ?_
    change skipStringFrom (.hex 3 true) (code _ :: code _ :: code _ :: code _ :: _) = _
    rw [(skipStringFrom_digit hi _).1, (skipStringFrom_digit hj _).1,
      (skipStringFrom_digit hk _).1, (skipStringFrom_digit hl _).2]
    exact ih

/-! ### Numbers -/

def AllDigits (s : List Char) : Prop :=
  ∀ c ∈ s, c.isDigit = true

/-- The digits before the point: a zero alone, or a digit that is none and more of them. -/
inductive IsWhole : List Char → Prop
  | zero : IsWhole ['0']
  | digits {c : Char} {s : List Char} (hzero : c ≠ '0') (h : AllDigits (c :: s)) : IsWhole (c :: s)

/-- A point with the digits behind it, or nothing. -/
inductive IsFraction : List Char → Prop
  | none : IsFraction []
  | digits {c : Char} {s : List Char} (h : AllDigits (c :: s)) : IsFraction ('.' :: c :: s)

/-- What is true of both letters. -/
theorem exponentLetters {p : Char → Prop} (hlower : p 'e') (hupper : p 'E') :
    ∀ e ∈ ['e', 'E'], p e :=
  List.forall_mem_cons.mpr ⟨hlower, List.forall_mem_singleton.mpr hupper⟩

/-- An exponent with its letter, its sign and its digits, or nothing. -/
inductive IsExponent : List Char → Prop
  | none : IsExponent []
  | digits {e c : Char} {sign s : List Char} (he : e ∈ ['e', 'E'])
      (hsign : sign ∈ [[], ['+'], ['-']]) (h : AllDigits (c :: s)) :
      IsExponent (e :: (sign ++ c :: s))

def IsNumber (w : List Char) : Prop :=
  ∃ sign whole fraction exponent, sign ∈ [[], ['-']] ∧ IsWhole whole ∧ IsFraction fraction ∧
    IsExponent exponent ∧ w = sign ++ (whole ++ (fraction ++ exponent))

theorem isDigit_code {c : Char} (h : c.isDigit = true) :
    c.toNat < 128 ∧ isDigitByte (code c) = true := by
  obtain ⟨hlow, hhigh⟩ := Bool.and_eq_true_iff.mp h
  have hlow : 48 ≤ c.toNat := of_decide_eq_true hlow
  have hhigh : c.toNat ≤ 57 := of_decide_eq_true hhigh
  have hascii : c.toNat < 128 := by omega
  refine ⟨hascii, ?_⟩
  rw [isDigitByte, Bool.and_eq_true, decide_eq_true_eq, decide_eq_true_eq, UInt8.le_iff_toNat_le,
    UInt8.le_iff_toNat_le, code, code, code, Text.toNat_toUInt8 hascii]
  exact ⟨hlow, hhigh⟩

theorem AllDigits.encoded_cons {c : Char} {s : List Char} (h : AllDigits (c :: s)) :
    encoded (c :: s) = code c :: encoded s ∧ isDigitByte (code c) = true ∧ AllDigits s := by
  obtain ⟨hascii, hdigit⟩ := isDigit_code (h c List.mem_cons_self)
  exact ⟨Text.encoded_cons_ascii hascii s, hdigit, fun c' hc' => h c' (List.mem_cons_of_mem _ hc')⟩

theorem AllDigits.isDigitByte {s : List Char} (h : AllDigits s) :
    ∀ b ∈ encoded s, isDigitByte b = true := by
  have hascii : ∀ c ∈ s, c.toNat < 128 := fun c hc => (isDigit_code (h c hc)).1
  intro b hb
  rw [Text.encoded_ascii hascii] at hb
  obtain ⟨c, hc, rfl⟩ := List.mem_map.mp hb
  exact (isDigit_code (h c hc)).2

theorem dropWhile_notDigit {rest : List UInt8} (hrest : startsWithDigit rest = false) :
    rest.dropWhile Json.isDigitByte = rest := by
  cases rest with
  | nil => rfl
  | cons b rest =>
    change Json.isDigitByte b = false at hrest
    exact List.dropWhile_cons_of_neg (by simp [hrest])

theorem AllDigits.dropWhile {s : List Char} (h : AllDigits s) {rest : List UInt8}
    (hrest : startsWithDigit rest = false) :
    (encoded s ++ rest).dropWhile Json.isDigitByte = rest := by
  rw [List.dropWhile_append_of_pos h.isDigitByte, dropWhile_notDigit hrest]

variable {rest : List UInt8}

/-- Neither a fraction nor an exponent begins with a digit. -/
theorem startsWithDigit_tail {fraction exponent : List Char} (hf : IsFraction fraction)
    (he : IsExponent exponent) (hrest : Stops rest) :
    startsWithDigit (encoded (fraction ++ exponent) ++ rest) = false := by
  cases hf with
  | digits h => rfl
  | none =>
    cases he with
    | none => exact hrest.startsWithDigit
    | @digits e c sign s hletter =>
      have hbyte : ∀ e ∈ ['e', 'E'], e.toNat < 128 ∧ isDigitByte (code e) = false :=
        exponentLetters (by decide) (by decide)
      obtain ⟨hascii, hdigit⟩ := hbyte e hletter
      rw [List.nil_append, Text.encoded_cons_ascii hascii]
      exact hdigit

theorem skipScale_exponent {exponent : List Char} (h : IsExponent exponent) (hrest : Stops rest) :
    skipScale (encoded exponent ++ rest) = .ok rest := by
  cases h with
  | none =>
    cases rest with
    | nil => rfl
    | cons b rest => exact if_neg (not_or.mpr hrest.2.2)
  | @digits e c sign s hletter hsign h =>
    have hbyte : ∀ e ∈ ['e', 'E'], e.toNat < 128 ∧ (code e = code 'e' ∨ code e = code 'E') :=
      exponentLetters (by decide) (by decide)
    obtain ⟨hascii, he⟩ := hbyte e hletter
    obtain ⟨hbytes, hdigit, hs⟩ := h.encoded_cons
    have hsigned : (readExponentSign (encoded (sign ++ c :: s) ++ rest)).2 =
        code c :: (encoded s ++ rest) := by
      rw [Text.encoded_append, hbytes]
      simp only [List.mem_cons, List.not_mem_nil, or_false] at hsign
      rcases hsign with rfl | rfl | rfl
      · have hplus := ne_of_isDigitByte hdigit (c := '+') (by decide) (by decide)
        have hminus := ne_of_isDigitByte hdigit (c := '-') (by decide) (by decide)
        rw [Text.encoded_nil, List.nil_append, List.cons_append, readExponentSign, if_neg hplus,
          if_neg hminus]
      · rfl
      · rfl
    rw [Text.encoded_cons_ascii hascii, List.cons_append]
    change skipScale (code e :: _) = _
    rw [skipScale, if_pos he, skipExponent, hsigned]
    dsimp only
    rw [if_pos hdigit, hs.dropWhile hrest.startsWithDigit]

/-- What may follow the digits before the point is passed over. -/
theorem skipNumber_tail {fraction exponent : List Char} (hf : IsFraction fraction)
    (he : IsExponent exponent) (hrest : Stops rest) :
    skipNumberTail (encoded (fraction ++ exponent) ++ rest) = .ok rest := by
  have hscale := skipScale_exponent he hrest
  cases hf with
  | digits h =>
    obtain ⟨hbytes, hdigit, -⟩ := h.encoded_cons
    have hstart := startsWithDigit_tail .none he hrest
    rw [List.nil_append] at hstart
    rw [List.cons_append, Text.encoded_cons_ascii (by decide), Text.encoded_append,
      List.cons_append, List.append_assoc]
    change skipNumberTail (code '.' :: _) = _
    rw [skipNumberTail, if_pos rfl, h.dropWhile hstart, hbytes]
    exact (if_pos hdigit).trans hscale
  | none =>
    rw [List.nil_append]
    cases hinput : encoded exponent ++ rest with
    | nil =>
      rw [List.append_eq_nil_iff] at hinput
      rw [hinput.2]
      rfl
    | cons b input =>
      have hpoint : b ≠ code '.' := by
        cases he with
        | none => exact (hinput ▸ hrest : Stops (b :: input)).2.1
        | @digits e c sign s hletter =>
          have hbyte : ∀ e ∈ ['e', 'E'], e.toNat < 128 ∧ code e ≠ code '.' :=
            exponentLetters (by decide) (by decide)
          rw [Text.encoded_cons_ascii (hbyte e hletter).1] at hinput
          rw [← (List.cons.inj hinput).1]
          exact (hbyte e hletter).2
      rw [skipNumberTail, if_neg hpoint, ← hinput, hscale]

/-- **A number is passed over**, whatever its size. -/
theorem skipNumber_whole {whole fraction exponent : List Char} (hw : IsWhole whole)
    (hf : IsFraction fraction) (he : IsExponent exponent) (hrest : Stops rest) :
    skipNumber (encoded (whole ++ (fraction ++ exponent)) ++ rest) = .ok rest := by
  have htail := skipNumber_tail hf he hrest
  have hstart := startsWithDigit_tail hf he hrest
  cases hw with
  | zero =>
    rw [List.singleton_append, Text.encoded_cons_ascii (by decide), List.cons_append]
    change skipNumber (code '0' :: _) = _
    rw [skipNumber, if_pos rfl, if_neg (by rw [hstart]; exact Bool.false_ne_true)]
    exact htail
  | @digits c s hzero h =>
    obtain ⟨hbytes, hdigit, hs⟩ := h.encoded_cons
    have hne : code c ≠ code '0' := fun heq =>
      hzero (Text.toUInt8_inj (isDigit_code (h c List.mem_cons_self)).1 (by decide) heq)
    rw [Text.encoded_append, hbytes, List.append_assoc, List.cons_append, skipNumber, if_neg hne,
      if_pos hdigit, hs.dropWhile hstart]
    exact htail

/-! ### Values -/

/-- A member of an object as it is written, with the key that it has. An item of a list is written
without what belongs to the key. -/
structure Member where
  name : String := ""
  before : List Char := []
  /-- What stands between the quotes of the key. -/
  key : List Char := []
  behindKey : List Char := []
  behindColon : List Char := []
  value : List Char
  behind : List Char := []

namespace Member

/-- The key with its quotes and its colon. -/
def keyChars (m : Member) : List Char :=
  '"' :: (m.key ++ '"' :: (m.behindKey ++ [':']))

/-- Only blanks stand between the tokens. -/
structure IsBlank (m : Member) : Prop where
  before : AllBlank m.before
  behindKey : AllBlank m.behindKey
  behindColon : AllBlank m.behindColon
  behind : AllBlank m.behind

end Member

namespace Container

/-- The characters between which a container stands. -/
def opening : Container → Char
  | list => '['
  | object => '\x7b'

def closingChar : Container → Char
  | list => ']'
  | object => '\x7d'

/-- A member in a container. -/
def member (c : Container) (m : Member) : List Char :=
  m.before ++ ((match c with | list => [] | object => m.keyChars) ++
    (m.behindColon ++ (m.value ++ m.behind)))

/-- The members behind the first one, each behind a comma. -/
def more (c : Container) (ms : List Member) : List Char :=
  ms.flatMap fun m => ',' :: c.member m

def members (c : Container) : List Member → List Char
  | [] => []
  | m :: ms => c.member m ++ c.more ms

/-- A container with its members, and with blanks before its end. -/
def chars (c : Container) (ms : List Member) (last : List Char) : List Char :=
  c.opening :: (c.members ms ++ (last ++ [c.closingChar]))

end Container

/-- A value follows the grammar of JSON. -/
inductive IsValue : List Char → Prop
  | word {w : List Char}
      (h : w ∈ [['n', 'u', 'l', 'l'], ['t', 'r', 'u', 'e'], ['f', 'a', 'l', 's', 'e']]) : IsValue w
  | string {w : List Char} (h : IsStringBody w) : IsValue ('"' :: (w ++ ['"']))
  | number {w : List Char} (h : IsNumber w) : IsValue w
  | container (c : Container) {ms : List Member} {last : List Char} (hlast : AllBlank last)
      (hblank : ∀ m ∈ ms, m.IsBlank) (hkeys : ∀ m ∈ ms, IsStringBody m.key)
      (h : ∀ m ∈ ms, IsValue m.value) : IsValue (c.chars ms last)

/-- A byte with which a value begins: no blank, and no end of a container. -/
structure BeginsValue (b : UInt8) : Prop where
  noBlank : isBlankByte b = false
  noEnd : ∀ c : Container, b ≠ c.closing

theorem beginsValue_digit {b : UInt8} (h : isDigitByte b = true) : BeginsValue b := by
  refine ⟨(beginsScalar_digit h).noBlank, fun c => ?_⟩
  cases c <;> exact ne_of_isDigitByte h (by decide) (by decide)

/-- A value that is no container, from its first byte on. -/
theorem IsNumber.skipScalar {w : List Char} (h : IsNumber w) (hrest : Stops rest) :
    ∃ b tail, encoded w = b :: tail ∧ BeginsValue b ∧ b ≠ code '[' ∧ b ≠ code '\x7b' ∧
      skipScalar b (tail ++ rest) = .ok rest := by
  obtain ⟨sign, whole, fraction, exponent, hsign, hw, hf, he, rfl⟩ := h
  have hnumber := skipNumber_whole hw hf he hrest
  simp only [List.mem_cons, List.not_mem_nil, or_false] at hsign
  rcases hsign with rfl | rfl
  · -- the first byte is a digit, and the number is read with it
    obtain ⟨c, s, rfl, hc⟩ : ∃ c s, whole = c :: s ∧ c.isDigit = true := by
      cases hw with
      | zero => exact ⟨_, _, rfl, rfl⟩
      | digits hzero h => exact ⟨_, _, rfl, h _ List.mem_cons_self⟩
    obtain ⟨hascii, hdigit⟩ := isDigit_code hc
    have hbytes : encoded (c :: s ++ (fraction ++ exponent)) =
        code c :: encoded (s ++ (fraction ++ exponent)) := Text.encoded_cons_ascii hascii _
    have hne : ∀ c' : Char, c'.toNat < 128 ∧ (c'.toNat < 48 ∨ 57 < c'.toNat) → code c ≠ code c' :=
      fun c' hc' => ne_of_isDigitByte hdigit hc'.1 hc'.2
    refine ⟨_, _, hbytes, beginsValue_digit hdigit, hne '[' (by decide), hne '\x7b' (by decide), ?_⟩
    rw [Json.skipScalar, if_neg (hne 'n' (by decide)), if_neg (hne 't' (by decide)),
      if_neg (hne 'f' (by decide)), if_neg (hne '"' (by decide)), if_neg (hne '-' (by decide)),
      if_pos hdigit, ← List.cons_append, ← hbytes]
    exact hnumber
  · refine ⟨code '-', _, Text.encoded_cons_ascii (by decide) _,
      ⟨rfl, fun c => by cases c <;> decide⟩, by decide, by decide, ?_⟩
    exact hnumber

/-- Characters are passed over as one value: with some count of stages, less than two for each
byte, whatever containers are open and whatever follows. -/
def Passes (w : List Char) : Prop :=
  ∃ count, 0 < count ∧ count < 2 * (encoded w).length ∧ ∀ fuel containers rest, Stops rest →
    skipStages (count + fuel) .value containers (encoded w ++ rest) =
      skipStages fuel .next containers rest

theorem passes_scalar {w : List Char}
    (h : ∀ rest, Stops rest → ∃ b tail, encoded w = b :: tail ∧ BeginsValue b ∧ b ≠ code '[' ∧
      b ≠ code '\x7b' ∧ skipScalar b (tail ++ rest) = .ok rest) : Passes w := by
  obtain ⟨b, tail, hbytes, -⟩ := h [] trivial
  refine ⟨1, Nat.one_pos, by rw [hbytes, List.length_cons]; omega, ?_⟩
  intro fuel containers rest hrest
  obtain ⟨b, tail, hbytes, hb, hlist, hobject, hskip⟩ := h rest hrest
  rw [hbytes, List.cons_append, Nat.add_comm, skipStages, skipBlanks_cons hb.noBlank]
  dsimp only
  rw [if_neg hlist, if_neg hobject, hskip]
  rfl

/-- The first byte of a value. -/
theorem IsValue.begins {w : List Char} (h : IsValue w) :
    ∃ b tail, encoded w = b :: tail ∧ BeginsValue b := by
  have hplain : ∀ c : Char, c.toNat < 128 → BeginsValue (code c) → ∀ w : List Char,
      ∃ b tail, encoded (c :: w) = b :: tail ∧ BeginsValue b :=
    fun c hascii hc w => ⟨_, _, Text.encoded_cons_ascii hascii w, hc⟩
  have hends (c : Char) (h : ∀ c' : Container, code c ≠ c'.closing)
      (hblank : isBlankByte (code c) = false) : BeginsValue (code c) := ⟨hblank, h⟩
  cases h with
  | word h =>
    simp only [List.mem_cons, List.not_mem_nil, or_false] at h
    rcases h with rfl | rfl | rfl <;>
      exact hplain _ (by decide) (hends _ (fun c => by cases c <;> decide) rfl) _
  | string h => exact hplain _ (by decide) (hends _ (fun c => by cases c <;> decide) rfl) _
  | number h =>
    have hend : Stops [] := trivial
    obtain ⟨b, tail, hbytes, hb, -⟩ := h.skipScalar hend
    exact ⟨b, tail, hbytes, hb⟩
  | container c =>
    cases c <;> exact hplain _ (by decide) (hends _ (fun c => by cases c <;> decide) rfl) _

/-! ### Containers -/

variable {c : Container} {ms : List Member} {m : Member} {last : List Char}

theorem closing_eq (c : Container) : code c.closingChar = c.closing := by cases c <;> rfl

theorem closingChar_ascii (c : Container) : c.closingChar.toNat < 128 := by cases c <;> decide

theorem encoded_last (c : Container) (last : List Char) (rest : List UInt8) :
    encoded (last ++ [c.closingChar]) ++ rest = encoded last ++ (c.closing :: rest) := by
  rw [Text.encoded_append, List.append_assoc, Text.encoded_cons_ascii (closingChar_ascii c),
    Text.encoded_nil, ← closing_eq]
  rfl

/-- The end of a container stops a number, and so do a comma and the blanks before them. -/
theorem stops_more (c : Container) (ms : List Member) (hlast : AllBlank last) (rest : List UInt8) :
    Stops (encoded (c.more ms ++ (last ++ [c.closingChar])) ++ rest) := by
  cases ms with
  | nil =>
    rw [Container.more, List.flatMap_nil, List.nil_append, encoded_last]
    refine hlast.stops ?_
    cases c <;> exact ⟨rfl, by decide, by decide, by decide⟩
  | cons m ms =>
    rw [Container.more, List.flatMap_cons, List.cons_append, List.cons_append,
      Text.encoded_cons_ascii (by decide)]
    exact ⟨rfl, by decide, by decide, by decide⟩

theorem encoded_keyChars (m : Member) (input : List UInt8) :
    encoded m.keyChars ++ input =
      code '"' :: (encoded m.key ++ code '"' :: (encoded m.behindKey ++ code ':' :: input)) := by
  have hquote (w : List Char) : encoded ('"' :: w) = code '"' :: encoded w :=
    Text.encoded_cons_ascii (by decide) w
  have hcolon : encoded [':'] = [code ':'] := rfl
  rw [Member.keyChars, hquote, Text.encoded_append, hquote, Text.encoded_append, hcolon]
  simp

/-- The first byte of a member does not end its container. -/
theorem member_begins (c : Container) (hblank : m.IsBlank) (h : IsValue m.value)
    (tail : List UInt8) :
    ∃ b input, skipBlanks (encoded (c.member m) ++ tail) = b :: input ∧ b ≠ c.closing := by
  cases c with
  | list =>
    obtain ⟨b, bytes, hbytes, hb⟩ := h.begins
    refine ⟨b, bytes ++ (encoded m.behind ++ tail), ?_, hb.noEnd .list⟩
    change skipBlanks (encoded (m.before ++ (m.behindColon ++ (m.value ++ m.behind))) ++ tail) = _
    simp only [Text.encoded_append, List.append_assoc]
    rw [skipBlanks_append hblank.before, skipBlanks_append hblank.behindColon, hbytes,
      List.cons_append, skipBlanks_cons hb.noBlank]
  | object =>
    refine ⟨code '"', encoded m.key ++ code '"' :: (encoded m.behindKey ++
      code ':' :: (encoded (m.behindColon ++ (m.value ++ m.behind)) ++ tail)), ?_, by decide⟩
    change skipBlanks (encoded (m.before ++ (m.keyChars ++ _)) ++ tail) = _
    rw [Text.encoded_append, Text.encoded_append, List.append_assoc, List.append_assoc,
      skipBlanks_append hblank.before, encoded_keyChars, skipBlanks_cons rfl]

/-- The key of a member is passed over, up to the blanks before its value. -/
theorem skipKey_member (c : Container) (hblank : m.IsBlank) (hkey : IsStringBody m.key)
    {start tail : List UInt8}
    (hstart : skipBlanks start = skipBlanks (encoded (c.member m) ++ tail)) :
    ∃ input, skipKey c start = .ok input ∧
      skipBlanks input = skipBlanks (encoded m.value ++ (encoded m.behind ++ tail)) := by
  have hvalue : skipBlanks (encoded (m.behindColon ++ (m.value ++ m.behind)) ++ tail) =
      skipBlanks (encoded m.value ++ (encoded m.behind ++ tail)) := by
    rw [Text.encoded_append, List.append_assoc, skipBlanks_append hblank.behindColon,
      Text.encoded_append, List.append_assoc]
  cases c with
  | list =>
    refine ⟨start, rfl, hstart.trans ?_⟩
    change skipBlanks (encoded (m.before ++ (m.behindColon ++ (m.value ++ m.behind))) ++ tail) = _
    rw [Text.encoded_append, List.append_assoc, skipBlanks_append hblank.before, hvalue]
  | object =>
    refine ⟨_, ?_, hvalue⟩
    change _ = skipBlanks (encoded (m.before ++ (m.keyChars ++ _)) ++ tail) at hstart
    rw [Text.encoded_append, Text.encoded_append, List.append_assoc, List.append_assoc,
      skipBlanks_append hblank.before, encoded_keyChars, skipBlanks_cons rfl] at hstart
    rw [skipKey, hstart]
    dsimp only
    rw [if_pos rfl, skipString_body hkey]
    have hcolon (rest : List UInt8) : skipBlanks (encoded m.behindKey ++ code ':' :: rest) =
        code ':' :: rest := by
      rw [skipBlanks_append hblank.behindKey, skipBlanks_cons rfl]
    simp only [bind, Except.bind, hcolon, if_true]

/-- A member is passed over, and the blanks behind it with what comes next. -/
theorem passes_member (c : Container) (hblank : m.IsBlank) (hkey : IsStringBody m.key)
    (h : Passes m.value) :
    ∃ count, count < 2 * (encoded (c.member m)).length ∧ ∀ fuel outer start tail, Stops tail →
      skipBlanks start = skipBlanks (encoded (c.member m) ++ tail) →
      ∃ input, skipKey c start = .ok input ∧
        skipStages (count + (fuel + 1)) .value (c :: outer) input =
          skipStages (fuel + 1) .next (c :: outer) tail := by
  obtain ⟨count, hpos, hcount, hpasses⟩ := h
  refine ⟨count, ?_, fun fuel outer start tail htail hstart => ?_⟩
  · have hlength : (encoded m.value).length ≤ (encoded (c.member m)).length := by
      simp only [Container.member, Text.encoded_append, List.length_append]
      omega
    omega
  obtain ⟨input, hinput, hvalue⟩ := skipKey_member c hblank hkey hstart
  refine ⟨input, hinput, ?_⟩
  obtain ⟨count, rfl⟩ := Nat.exists_eq_succ_of_ne_zero (Nat.ne_of_gt hpos)
  have hfirst : skipStages (count + (fuel + 1) + 1) .value (c :: outer) input =
      skipStages (count + (fuel + 1) + 1) .value (c :: outer)
        (encoded m.value ++ (encoded m.behind ++ tail)) := by
    rw [skipStages, skipStages, hvalue]
  have hnext : skipStages (fuel + 1) .next (c :: outer) (encoded m.behind ++ tail) =
      skipStages (fuel + 1) .next (c :: outer) tail := by
    rw [skipStages, skipStages, skipBlanks_append hblank.behind]
  have hstages : count.succ + (fuel + 1) = count + (fuel + 1) + 1 := by omega
  rw [← hnext, ← hpasses (fuel + 1) (c :: outer) _ (hblank.behind.stops htail), hstages, hfirst]

theorem not_comma (c : Container) : c.closing ≠ code ',' := by cases c <;> decide

theorem noBlank_closing (c : Container) : isBlankByte c.closing = false := by cases c <;> rfl

theorem closing_pos (c : Container) : 0 < (encoded [c.closingChar]).length := by
  rw [Text.encoded_cons_ascii (closingChar_ascii c)]
  exact Nat.succ_pos _

/-- The members behind the first one are passed over, and the end of their container. -/
theorem passes_more (c : Container) (hlast : AllBlank last) (hblank : ∀ m ∈ ms, m.IsBlank)
    (hkeys : ∀ m ∈ ms, IsStringBody m.key) (h : ∀ m ∈ ms, Passes m.value) :
    ∃ count, count + 1 < 2 * (encoded (c.more ms ++ (last ++ [c.closingChar]))).length ∧
      ∀ fuel outer rest, skipStages (count + 1 + fuel) .next (c :: outer)
        (encoded (c.more ms ++ (last ++ [c.closingChar])) ++ rest) =
          skipStages fuel .next outer rest := by
  induction ms with
  | nil =>
    refine ⟨0, ?_, fun fuel outer rest => ?_⟩
    · have hend := closing_pos c
      simp only [Container.more, List.flatMap_nil, List.nil_append, Text.encoded_append,
        List.length_append]
      omega
    · rw [Container.more, List.flatMap_nil, List.nil_append, encoded_last, Nat.zero_add,
        Nat.add_comm, skipStages, skipBlanks_append hlast, skipBlanks_cons (noBlank_closing c)]
      dsimp only
      rw [if_neg (not_comma c), if_pos rfl]
  | cons m ms ih =>
    obtain ⟨count, hcount, hrun⟩ := ih (fun m hm => hblank m (List.mem_cons_of_mem _ hm))
      (fun m hm => hkeys m (List.mem_cons_of_mem _ hm)) fun m hm => h m (List.mem_cons_of_mem _ hm)
    obtain ⟨count', hcount', hmember⟩ := passes_member c (hblank m List.mem_cons_self)
      (hkeys m List.mem_cons_self) (h m List.mem_cons_self)
    have hbytes : encoded (c.more (m :: ms) ++ (last ++ [c.closingChar])) = code ',' ::
        (encoded (c.member m) ++ encoded (c.more ms ++ (last ++ [c.closingChar]))) := by
      rw [Container.more, List.flatMap_cons, ← Container.more, List.cons_append, List.cons_append,
        Text.encoded_cons_ascii (by decide), List.append_assoc, Text.encoded_append]
      rfl
    refine ⟨count' + (count + 1), ?_, fun fuel outer rest => ?_⟩
    · rw [hbytes, List.length_cons, List.length_append]
      omega
    have hstops := stops_more c ms hlast rest
    obtain ⟨input, hinput, hstep⟩ := hmember (count + fuel) outer _ _ hstops rfl
    have hstages : count' + (count + 1) + 1 + fuel = count' + (count + fuel + 1) + 1 := by omega
    have hstages' : count + fuel + 1 = count + 1 + fuel := by omega
    rw [hbytes, List.cons_append, List.append_assoc, hstages, skipStages, skipBlanks_cons rfl]
    dsimp only
    rw [if_pos rfl, hinput]
    refine hstep.trans ?_
    rw [hstages', hrun]

theorem openings (c : Container) :
    c.opening.toNat < 128 ∧ isBlankByte (code c.opening) = false := by
  cases c <;> decide

/-- The first stage of a container. -/
theorem skipStages_opening (c : Container) (fuel : Nat) (containers : List Container)
    (rest : List UInt8) :
    skipStages (fuel + 1) .value containers (code c.opening :: rest) =
      skipStages fuel .first (c :: containers) rest := by
  rw [skipStages, skipBlanks_cons (openings c).2]
  cases c <;> rfl

/-- A container is passed over if its members are. -/
theorem passes_container (c : Container) (hlast : AllBlank last) (hblank : ∀ m ∈ ms, m.IsBlank)
    (hkeys : ∀ m ∈ ms, IsStringBody m.key) (hvalues : ∀ m ∈ ms, IsValue m.value)
    (h : ∀ m ∈ ms, Passes m.value) : Passes (c.chars ms last) := by
  have hbytes : encoded (c.chars ms last) =
      code c.opening :: encoded (c.members ms ++ (last ++ [c.closingChar])) :=
    Text.encoded_cons_ascii (openings c).1 _
  cases ms with
  | nil =>
    refine ⟨2, by decide, ?_, fun fuel containers rest _ => ?_⟩
    · have hend := closing_pos c
      simp only [hbytes, Container.members, List.nil_append, Text.encoded_append, List.length_cons,
        List.length_append]
      omega
    · rw [hbytes, List.cons_append, Nat.add_comm, skipStages_opening, Container.members,
        List.nil_append, encoded_last, skipStages, skipBlanks_append hlast,
        skipBlanks_cons (noBlank_closing c)]
      exact if_pos rfl
  | cons m ms =>
    obtain ⟨count, hcount, hrun⟩ := passes_more c hlast
      (fun m hm => hblank m (List.mem_cons_of_mem _ hm))
      (fun m hm => hkeys m (List.mem_cons_of_mem _ hm)) fun m hm => h m (List.mem_cons_of_mem _ hm)
    obtain ⟨count', hcount', hmember⟩ := passes_member c (hblank m List.mem_cons_self)
      (hkeys m List.mem_cons_self) (h m List.mem_cons_self)
    rw [Container.members, List.append_assoc, Text.encoded_append] at hbytes
    refine ⟨count' + (count + 1) + 2, by omega, ?_, fun fuel containers rest _ => ?_⟩
    · rw [hbytes, List.length_cons, List.length_append]
      omega
    have hstops := stops_more c ms hlast rest
    obtain ⟨b, tail, hbegins, hb⟩ := member_begins c (hblank m List.mem_cons_self)
      (hvalues m List.mem_cons_self)
      (encoded (c.more ms ++ (last ++ [c.closingChar])) ++ rest)
    have hstart : skipBlanks (b :: tail) = skipBlanks
        (encoded (c.member m) ++ (encoded (c.more ms ++ (last ++ [c.closingChar])) ++ rest)) := by
      rw [← hbegins, skipBlanks_skipBlanks]
    obtain ⟨input, hinput, hstep⟩ := hmember (count + fuel) containers _ _ hstops hstart
    have hstages : count' + (count + 1) + 2 + fuel = count' + (count + fuel + 1) + 1 + 1 := by omega
    have hstages' : count + fuel + 1 = count + 1 + fuel := by omega
    rw [hbytes, List.cons_append, hstages, skipStages_opening, List.append_assoc, skipStages,
      hbegins]
    dsimp only
    rw [if_neg hb, hinput]
    refine hstep.trans ?_
    rw [hstages', hrun]

/-- **Every value is passed over.** -/
theorem IsValue.passes {w : List Char} (h : IsValue w) : Passes w := by
  induction h with
  | word h =>
    refine passes_scalar fun rest _ => ?_
    simp only [List.mem_cons, List.not_mem_nil, or_false] at h
    have hbegins (b : UInt8) (hb : isBlankByte b = false ∧ ∀ c : Container, b ≠ c.closing) :
        BeginsValue b := ⟨hb.1, hb.2⟩
    rcases h with rfl | rfl | rfl <;>
      exact ⟨_, _, rfl, hbegins _ ⟨rfl, fun c => by cases c <;> decide⟩, by decide, by decide, rfl⟩
  | string h =>
    refine passes_scalar fun rest _ => ⟨_, _, encoded_quoted _,
      ⟨rfl, fun c => by cases c <;> decide⟩, by decide, by decide, ?_⟩
    rw [List.append_assoc]
    exact skipString_body h rest
  | number h => exact passes_scalar fun rest hrest => h.skipScalar hrest
  | container c hlast hblank hkeys hvalues ih =>
    exact passes_container c hlast hblank hkeys hvalues ih

/-- **A value that nobody asked for is passed over** exactly, and blanks before it. -/
theorem IsValue.skipValue {w blanks : List Char} (h : IsValue w) (hblanks : AllBlank blanks)
    (hrest : Stops rest) : skipValue (encoded (blanks ++ w) ++ rest) = .ok rest := by
  obtain ⟨count, -, hcount, hpasses⟩ := h.passes
  have hlength : (encoded w).length ≤ (encoded (blanks ++ w) ++ rest).length := by
    simp only [Text.encoded_append, List.length_append]
    omega
  obtain ⟨fuel, hfuel⟩ : ∃ fuel, 2 * (encoded (blanks ++ w) ++ rest).length + 2 =
      count + (fuel + 1) := ⟨2 * (encoded (blanks ++ w) ++ rest).length + 1 - count, by omega⟩
  have hskip : skipStages (count + fuel + 1) .value [] (encoded (blanks ++ w) ++ rest) =
      skipStages (count + fuel + 1) .value [] (encoded w ++ rest) := by
    rw [Text.encoded_append, List.append_assoc, skipStages, skipStages, skipBlanks_append hblanks]
  rw [Json.skipValue, hfuel, ← Nat.add_assoc, hskip, Nat.add_assoc, hpasses _ _ _ hrest]
  rfl

end FileReceiver.Json
