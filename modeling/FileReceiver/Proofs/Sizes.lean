/-
# The sizes that are declared

The size of a file is given as a number or as text, and is either taken
exactly or refused. A numeral that fits 64 bits is the size, and a longer one
counts as the largest (`sizeOf?_number`); text must be digits behind an
optional plus sign, between blanks, and is refused if they do not fit
(`sizeOf?_digits`, `sizeOf?_text`). Below zero there is no size.

What a size is does not depend on where it stands: in any offer, with blanks
between its tokens, other members in any order and unknown keys, read from its
text or first as a value, the size is what its characters say
(`FileOffer.SizeIs.gives`).

Key definitions: `FileOffer.SizeIs`, `FileOffer.IsOffer`,
`FileOffer.GivesSize`.
Key theorems: `FileOffer.storeMembers_size`, `FileOffer.SizeIs.gives`,
`FileOffer.sizes_exact`.
-/
import FileReceiver.Proofs.Numerals
import FileReceiver.Proofs.Wire

namespace FileReceiver

/-! ### Text that holds a number -/

namespace Text

variable {pad behind core digits : List Char} {n : Nat}

theorem dropWhile_isBlank (hpad : ∀ c ∈ pad, isBlank c = true)
    (hcore : ∀ c ∈ core, isBlank c = false) (hne : core ≠ []) (tail : List Char) :
    (pad ++ (core ++ tail)).dropWhile isBlank = core ++ tail := by
  obtain ⟨c, core, rfl⟩ := List.exists_cons_of_ne_nil hne
  rw [List.dropWhile_append_of_pos hpad, List.cons_append,
    List.dropWhile_cons_of_neg (by rw [hcore c List.mem_cons_self]; exact Bool.false_ne_true)]

/-- The blanks around text without blanks are taken off. -/
theorem trimBlanks_padded (hpad : ∀ c ∈ pad, isBlank c = true)
    (hbehind : ∀ c ∈ behind, isBlank c = true) (hcore : ∀ c ∈ core, isBlank c = false)
    (hne : core ≠ []) : trimBlanks (pad ++ (core ++ behind)) = core := by
  have hback : ∀ c ∈ behind.reverse, isBlank c = true :=
    fun c hc => hbehind c (List.mem_reverse.mp hc)
  have hcore' : ∀ c ∈ core.reverse, isBlank c = false :=
    fun c hc => hcore c (List.mem_reverse.mp hc)
  have hdrop := dropWhile_isBlank hback hcore' (List.reverse_ne_nil_iff.mpr hne) []
  rw [List.append_nil] at hdrop
  rw [trimBlanks, dropWhile_isBlank hpad hcore hne, List.reverse_append, hdrop,
    List.reverse_reverse]

theorem isBlank_digit {c : Char} (h : c.isDigit = true) : isBlank c = false := by
  obtain ⟨hlow, hhigh⟩ := Bool.and_eq_true_iff.mp h
  have hlow : 48 ≤ c.toNat := of_decide_eq_true hlow
  have hhigh : c.toNat ≤ 57 := of_decide_eq_true hhigh
  simp only [isBlank, Bool.or_eq_false_iff, Bool.and_eq_false_iff, decide_eq_false_iff_not,
    beq_eq_false_iff_ne]
  omega

/-- A run of digits is read as the number that it writes, and nothing else is read. -/
theorem readNat?_eq (s : List Char) :
    readNat? s = if s ≠ [] ∧ s.all Char.isDigit = true then some (Nat.ofDigitChars 10 s 0)
      else none := by
  have hnone (s : List Char) : s.foldl (fun total c => do
      pure ((← total) * 10 + (← digitValue? c))) none = none := by
    induction s with
    | nil => rfl
    | cons c s ih => exact ih
  have hfold (s : List Char) (start : Nat) : s.foldl (fun total c => do
      pure ((← total) * 10 + (← digitValue? c))) (some start) =
        if s.all Char.isDigit = true then some (Nat.ofDigitChars 10 s start) else none := by
    induction s generalizing start with
    | nil => rfl
    | cons c s ih =>
      rw [List.foldl_cons, Nat.ofDigitChars_cons, List.all_cons]
      cases hc : c.isDigit with
      | true =>
        simp only [digitValue?, hc, if_true, Bool.true_and]
        rw [Nat.mul_comm 10 start]
        exact ih _
      | false =>
        simp only [digitValue?, hc, Bool.false_eq_true, if_false, Bool.false_and]
        exact hnone s
  cases s with
  | nil => rfl
  | cons c s =>
    simp only [readNat?, List.isEmpty_cons, Bool.false_eq_true, if_false, ne_eq, reduceCtorEq,
      not_false_eq_true, true_and]
    exact hfold (c :: s) 0

/-- What may stand before digits. -/
def IsPlus (sign : List Char) : Prop :=
  sign ∈ [[], ['+']]

theorem readCount?_plain {c : Char} (hc : c ≠ '+') (s : List Char) :
    readCount? (c :: s) = readNat? (c :: s) := by
  unfold readCount?
  split
  · rename_i heq
    exact absurd (List.cons.inj heq).1 hc
  · rfl

/-- Digits behind an optional plus sign are read as their number. -/
theorem readCount?_digits {sign : List Char} (hsign : IsPlus sign) (hne : digits ≠ [])
    (hdigits : ∀ c ∈ digits, c.isDigit = true) :
    readCount? (sign ++ digits) = some (Nat.ofDigitChars 10 digits 0) := by
  have hread : readNat? digits = some (Nat.ofDigitChars 10 digits 0) := by
    rw [readNat?_eq, if_pos ⟨hne, List.all_eq_true.mpr hdigits⟩]
  rcases List.mem_cons.mp hsign with rfl | hsign
  · obtain ⟨c, digits, rfl⟩ := List.exists_cons_of_ne_nil hne
    have hc : c ≠ '+' := by
      rintro rfl
      exact absurd (hdigits '+' List.mem_cons_self) (by decide)
    rw [List.nil_append, readCount?_plain hc, hread]
  · rw [List.mem_singleton.mp hsign]
    exact hread

/-- Nothing else is read as a number. -/
theorem readCount?_some {s : List Char} (h : readCount? s = some n) :
    ∃ sign digits, IsPlus sign ∧ digits ≠ [] ∧ (∀ c ∈ digits, c.isDigit = true) ∧
      s = sign ++ digits := by
  have hdigits {s : List Char} (h : readNat? s = some n) :
      s ≠ [] ∧ ∀ c ∈ s, c.isDigit = true := by
    rw [readNat?_eq] at h
    split at h
    · rename_i hs
      exact ⟨hs.1, List.all_eq_true.mp hs.2⟩
    · cases h
  unfold readCount? at h
  split at h
  · exact ⟨['+'], _, by simp [IsPlus], (hdigits h).1, (hdigits h).2, rfl⟩
  · exact ⟨[], _, by simp [IsPlus], (hdigits h).1, (hdigits h).2, rfl⟩

end Text

namespace FileOffer

open Json
open Text (encoded)

variable {n : Nat} {v : Value} {size : Option Nat} {members : List (String × Value)}

/-! ### Values that are sizes -/

/-- The size that a value gives, if it gives one. -/
def sizeOf? (v : Value) : Option Nat :=
  (sizeOfValue v).toOption.map UInt64.toNat

theorem toNat_toUInt64 (h : n < UInt64.size) : n.toUInt64.toNat = n :=
  UInt64.toNat_ofNat_of_lt' h

/-- A numeral that fits is the size, and one that does not fit counts as the largest. -/
theorem sizeOf?_number {x : Number} (hshort : n < UInt64.size → x = .integer n)
    (hlong : UInt64.size ≤ n → ∃ z, x = .real ⟨false, z⟩ ∧ UInt64.size ≤ z.truncate) :
    sizeOf? (.number x) = some (min n (2 ^ 64 - 1)) := by
  have hlimit : UInt64.size = 18446744073709551616 := rfl
  rcases Nat.lt_or_ge n UInt64.size with hfits | hover
  · rw [hshort hfits, sizeOf?, sizeOfValue, if_pos (Int.natCast_nonneg n), Int.toNat_natCast]
    change some n.toUInt64.toNat = _
    rw [toNat_toUInt64 hfits, Nat.min_eq_left (by omega)]
  · obtain ⟨z, rfl, hz⟩ := hlong hover
    have hmin : min z.truncate maxSize = 18446744073709551615 :=
      Nat.min_eq_right (Nat.le_trans (by decide) hz)
    rw [sizeOf?, sizeOfValue, sizeOfReal, if_pos (by rfl)]
    dsimp only
    rw [hmin, Nat.min_eq_right (by omega)]
    rfl

/-- Nothing below zero is a size. -/
theorem sizeOf?_belowZero {x : Number} (h : x.IsBelowZero) : sizeOf? (.number x) = none := by
  have hreal {x : Binary64} (hx : x.isNonnegative = false) : (sizeOfReal x).toOption = none := by
    rw [sizeOfReal, if_neg (by rw [hx]; exact Bool.false_ne_true)]
    rfl
  cases x with
  | real x => rw [sizeOf?, sizeOfValue, hreal h, Option.map_none]
  | integer i =>
    obtain ⟨hnegative, hsize⟩ := h
    have hleast : (Magnitude.ofNat? leastIntegerSize).isSome = true := by decide +kernel
    obtain ⟨top, htop⟩ := Option.isSome_iff_exists.mp hleast
    obtain ⟨z, hz, -⟩ := Magnitude.ofNat?_mono hsize htop
    have hpos : 0 < i.natAbs := by omega
    have hx : (Binary64.mk true z).isNonnegative = false := by
      simpa [Binary64.isNonnegative] using Magnitude.ofNat?_pos hpos hz
    rw [sizeOf?, sizeOfValue, if_neg (by omega), Binary64.ofSigned?, hz, Option.map_some,
      Option.getD_some, hreal hx, Option.map_none]

/-- Digits between blanks, behind an optional plus sign, give their number if it fits. -/
theorem sizeOf?_digits {s : String} {pad sign behind digits : List Char}
    (hs : s.toList = pad ++ (sign ++ digits ++ behind)) (hpad : ∀ c ∈ pad, Text.isBlank c = true)
    (hbehind : ∀ c ∈ behind, Text.isBlank c = true) (hsign : Text.IsPlus sign) (hne : digits ≠ [])
    (hdigits : ∀ c ∈ digits, c.isDigit = true) (hn : Nat.ofDigitChars 10 digits 0 = n) :
    sizeOf? (.string s) = if n < 2 ^ 64 then some n else none := by
  have hcore : ∀ c ∈ sign ++ digits, Text.isBlank c = false := by
    have hplus : ∀ sign ∈ [[], ['+']], ∀ c ∈ sign, Text.isBlank c = false :=
      List.forall_mem_cons.mpr ⟨List.forall_mem_nil _,
        List.forall_mem_singleton.mpr (List.forall_mem_singleton.mpr (by decide))⟩
    intro c hc
    rcases List.mem_append.mp hc with hc | hc
    · exact hplus sign hsign c hc
    · exact Text.isBlank_digit (hdigits c hc)
  have htrim : Text.trimBlanks s.toList = sign ++ digits := by
    rw [hs, Text.trimBlanks_padded hpad hbehind hcore (List.append_ne_nil_of_right_ne_nil _ hne)]
  rw [sizeOf?, sizeOfValue, sizeOfText, htrim, Text.readCount?_digits hsign hne hdigits, hn]
  dsimp only
  have hlimit : maxSize = 18446744073709551615 := rfl
  by_cases hfits : n < 2 ^ 64
  · rw [if_pos (by omega), if_pos hfits]
    change some n.toUInt64.toNat = _
    rw [toNat_toUInt64 hfits]
  · rw [if_neg (by omega), if_neg hfits]
    rfl

/-- Other text gives none. -/
theorem sizeOf?_text {s : String}
    (h : ¬ ∃ sign digits, Text.IsPlus sign ∧ digits ≠ [] ∧ (∀ c ∈ digits, c.isDigit = true) ∧
      Text.trimBlanks s.toList = sign ++ digits) : sizeOf? (.string s) = none := by
  rw [sizeOf?, sizeOfValue, sizeOfText]
  split
  · rename_i hread
    exact absurd (Text.readCount?_some hread) h
  · rfl

/-! ### Characters that are sizes -/

/-- Characters are read as a value that gives the size, at any depth, or there is none. -/
def SizeIs (chars : List Char) (size : Option Nat) : Prop :=
  ∃ v : Option Value, (∀ depth, Yields (readValue depth) chars v) ∧ v.bind sizeOf? = size

theorem sizeIs_numeral (hn : n < 10 ^ 308) :
    SizeIs (Nat.toDigits 10 n) (some (min n (2 ^ 64 - 1))) := by
  obtain ⟨x, hread, hshort, hlong⟩ := numeral_restores hn
  exact ⟨some (.number x), fun depth => (hread depth).yields, sizeOf?_number hshort hlong⟩

theorem sizeIs_minus (hn : 0 < n) : SizeIs ('-' :: Nat.toDigits 10 n) none := by
  obtain ⟨x, hread, hbelow⟩ := minus_yields hn
  refine ⟨x.map .number, hread, ?_⟩
  cases x with
  | none => rfl
  | some x => exact sizeOf?_belowZero (hbelow x rfl)

theorem sizeIs_string {w : List Char} {s : String} (h : Spells w s.toList)
    (hsize : sizeOf? (.string s) = size) : SizeIs ('"' :: (w ++ ['"'])) size :=
  ⟨some (.string s), fun depth => ((Denotes.string h).restores depth).yields, hsize⟩

/-! ### Offers -/

/-- The field of the size. -/
def sizeField : Json.Field FileOffer :=
  sizeForm.field "size" FileOffer.size fun v f => { f with size := v }

theorem field?_size : schema.field? "size" = some sizeField := rfl

/-- A value that the other fields of an offer take. -/
def IsOptionalText (v : Value) : Prop :=
  v = .null ∨ ∃ s, v = .string s

/-- A field other than the size takes text or nothing and leaves the size alone. -/
theorem store_text : ∀ f ∈ schema.fields, f.name ≠ "size" → ∀ v r, IsOptionalText v →
    ∃ r', f.store v r = .ok r' ∧ r'.size = r.size := by
  have hform (v : Value) (hv : IsOptionalText v) : ∃ a, Form.text.optional.decode v = .ok a := by
    rcases hv with rfl | ⟨s, rfl⟩
    · exact ⟨none, rfl⟩
    · exact ⟨some s, rfl⟩
  have hfield {name : String} {get : FileOffer → Option String}
      {set : Option String → FileOffer → FileOffer} (hset : ∀ a r, (set a r).size = r.size)
      (v : Value) (r : FileOffer) (hv : IsOptionalText v) :
      ∃ r', (Form.text.optional.field name get set).store v r = .ok r' ∧ r'.size = r.size := by
    obtain ⟨a, ha⟩ := hform v hv
    exact ⟨set a r, congrArg (Except.map (set · r)) ha, hset a r⟩
  simp only [schema, List.forall_mem_cons]
  exact ⟨fun _ => hfield fun _ _ => rfl, fun hne => absurd rfl hne, fun _ => hfield fun _ _ => rfl,
    fun _ => hfield fun _ _ => rfl, by simp⟩

/-- **The size of an offer is what the member for it gives**, whatever the others are. -/
theorem storeMembers_size (hmembers : ∀ m ∈ members, m.1 ≠ "size" →
      schema.field? m.1 = none ∨ IsOptionalText m.2) (r : FileOffer) :
    (schema.storeMembers members r).toOption.map (·.size.toNat) =
      ((members.filter (·.1 == "size")).map (·.2)).foldlM (fun _ v => sizeOf? v) r.size.toNat := by
  induction members generalizing r with
  | nil => rfl
  | cons m members ih =>
    have hrest := fun r => ih (fun m hm => hmembers m (List.mem_cons_of_mem _ hm)) r
    obtain ⟨key, v⟩ := m
    rw [Schema.storeMembers_cons]
    by_cases hkey : key = "size"
    · subst hkey
      rw [List.filter_cons_of_pos (by rfl), List.map_cons, List.foldlM_cons]
      change ((sizeOfValue v).map ({ r with size := · }) >>= _).toOption.map _ = _
      rw [sizeOf?]
      cases sizeOfValue v with
      | error e => rfl
      | ok size => exact hrest { r with size := size }
    rw [List.filter_cons_of_neg (by simpa using hkey)]
    cases hf : schema.field? key with
    | none => exact hrest r
    | some f =>
      obtain ⟨hfield, hname⟩ := Schema.field?_some hf
      have hv := (hmembers (key, v) List.mem_cons_self hkey).resolve_left (by simp [hf])
      obtain ⟨r', hstore, hsize⟩ := store_text f hfield (by rwa [hname]) v r hv
      dsimp only
      rw [hstore, ← hsize]
      exact hrest r'

/-- An offer as it is written, with the characters of its size if there is one. Its other fields
have text or nothing, each once at most, and there may be members with unknown keys. -/
structure IsOffer (ms : List Member) (size : Option (List Char)) : Prop where
  written : ∀ m ∈ ms, m.IsWritten
  once : ((ms.map (·.name)).filter fun key => (schema.field? key).isSome).Nodup
  size : (ms.filter (·.name == "size")).map (·.value) = size.toList
  known : ∀ m ∈ ms, (schema.field? m.name).isSome = true → m.name ≠ "size" →
    ∃ v, Denotes m.value v ∧ IsOptionalText v
  unknown : ∀ m ∈ ms, schema.field? m.name = none → IsValue m.value

/-- **The size of every offer** that is written with the characters, or without a size: of one that
is read from its text, with blanks around it, and of one that is read as a value first. No size
means that the offer is refused. -/
structure GivesSize (chars : Option (List Char)) (size : Option Nat) : Prop where
  text : ∀ ms last before behind, IsOffer ms chars → AllBlank last → AllBlank before →
    AllBlank behind → (schema.ofText (encoded (before ++ Container.object.chars ms last ++
      behind))).toOption.map (·.size.toNat) = size
  value : ∀ depth ms last rest, IsOffer ms chars → AllBlank last → Stops rest →
    (ms.map (·.name)).Nodup →
    (∀ m ∈ ms, schema.field? m.name = none → ∃ v, Restores (readValue depth) m.value v) →
    ((readValue (depth + 1) (encoded (Container.object.chars ms last) ++ rest)).toOption.bind
      fun p => (schema.ofValue p.1).toOption.map (·.size.toNat)) = size

section Offers

variable {ms : List Member} {m : Member} {chars : Option (List Char)}
  {read : Option (List Char × Value)}

/-- A member for the size holds its characters. -/
theorem IsOffer.value_mem (h : IsOffer ms chars) (hm : m ∈ ms) (hname : m.name = "size") :
    m.value ∈ chars := by
  have hmem : m.value ∈ (ms.filter (·.name == "size")).map (·.value) :=
    List.mem_map_of_mem (List.mem_filter.mpr ⟨hm, by simpa using hname⟩)
  rw [h.size] at hmem
  exact Option.mem_toList.mp hmem

/-- What is made of a member: of the size what its characters say, and of another known field text
or nothing. -/
structure Fits (read : Option (List Char × Value)) (m : Member) (v : Value) : Prop where
  size : m.name = "size" → (m.value, v) ∈ read
  others : m.name ≠ "size" → schema.field? m.name = none ∨ IsOptionalText v

/-- What the member for the size stores, if there is one. -/
theorem values_of_fits {pairs : List (Member × Value)}
    (hoffer : IsOffer (pairs.map (·.1)) (read.map (·.1))) (hfits : ∀ q ∈ pairs, Fits read q.1 q.2) :
    ((pairs.map fun q => (q.1.name, q.2)).filter (·.1 == "size")).map (·.2) =
      (read.map (·.2)).toList := by
  have hsize : (pairs.filter (·.1.name == "size")).map (·.1.value) = (read.map (·.1)).toList := by
    rw [← hoffer.size, List.filter_map, List.map_map]
    rfl
  rw [List.filter_map, List.map_map]
  change (pairs.filter (·.1.name == "size")).map (·.2) = _
  have hmem : ∀ q ∈ pairs.filter (·.1.name == "size"), (q.1.value, q.2) ∈ read := by
    intro q hq
    obtain ⟨hq, hname⟩ := List.mem_filter.mp hq
    exact (hfits q hq).size (by simpa using hname)
  cases read with
  | none =>
    rw [List.map_eq_nil_iff.mp hsize]
    rfl
  | some p =>
    obtain ⟨q, hkept, -⟩ := List.map_eq_singleton_iff.mp hsize
    rw [hkept] at hmem ⊢
    rw [Option.some.inj (hmem q List.mem_cons_self)]
    rfl

/-- Members that are stored leave the size that the member for it gives. -/
theorem stored_size {pairs : List (Member × Value)}
    (hoffer : IsOffer (pairs.map (·.1)) (read.map (·.1))) (hfits : ∀ q ∈ pairs, Fits read q.1 q.2)
    {members : List (String × Value)}
    (hperm : members.Perm (pairs.map fun q => (q.1.name, q.2))) :
    (schema.storeMembers members schema.default).toOption.map (·.size.toNat) =
      (read.map (·.2)).toList.foldlM (fun _ v => sizeOf? v) 0 := by
  have hvalues : (members.filter (·.1 == "size")).map (·.2) = (read.map (·.2)).toList := by
    have hsame := (hperm.filter (·.1 == "size")).map (·.2)
    rw [values_of_fits hoffer hfits] at hsame
    cases read with
    | none => exact List.perm_nil.mp hsame
    | some p => exact List.perm_singleton.mp hsame
  have hothers : ∀ m ∈ members, m.1 ≠ "size" →
      schema.field? m.1 = none ∨ IsOptionalText m.2 := by
    intro m hm hne
    obtain ⟨q, hq, rfl⟩ := List.mem_map.mp (hperm.subset hm)
    exact (hfits q hq).others hne
  rw [storeMembers_size hothers, hvalues]
  rfl

/-- What is made of a member, if it is read in some way. -/
theorem IsOffer.exists_fits (h : IsOffer ms (read.map (·.1))) (hm : m ∈ ms) {p : Value → Prop}
    (hsize : ∀ q ∈ read, m.name = "size" → m.value = q.1 → p q.2)
    (hknown : ∀ v, (schema.field? m.name).isSome = true → Denotes m.value v → p v)
    (hunknown : schema.field? m.name = none → ∃ v, p v) : ∃ v, p v ∧ Fits read m v := by
  by_cases hname : m.name = "size"
  · obtain ⟨q, hq, hvalue⟩ := Option.mem_map.mp (h.value_mem hm hname)
    exact ⟨q.2, hsize q hq hname hvalue.symm, fun _ => hvalue ▸ hq, fun hne => absurd hname hne⟩
  cases hf : schema.field? m.name with
  | none =>
    obtain ⟨v, hv⟩ := hunknown hf
    exact ⟨v, hv, fun heq => absurd heq hname, fun _ => Or.inl hf⟩
  | some f =>
    obtain ⟨v, hdenotes, hv⟩ := h.known m hm (by rw [hf]; rfl) hname
    exact ⟨v, hknown v (by rw [hf]; rfl) hdenotes, fun heq => absurd heq hname,
      fun _ => Or.inr hv⟩

/-- **The size is what its characters say**, wherever they stand. -/
theorem givesSize_read (hread : ∀ q ∈ read, ∀ depth, Restores (readValue depth) q.1 q.2) :
    GivesSize (read.map (·.1)) ((read.map (·.2)).toList.foldlM (fun _ v => sizeOf? v) 0) where
  text ms last before behind hoffer hlast hbefore hbehind := by
    have hchoose : ∀ m ∈ ms, ∃ v, schema.Reads m v ∧ Fits read m v := by
      intro m hm
      refine hoffer.exists_fits hm (fun q hq hname hvalue => ?_) (fun v hsome hv => ?_)
        fun hf => ⟨.null, Schema.reads_unknown hf (hoffer.unknown m hm hf)⟩
      · have hf : schema.field? m.name = some sizeField := by rw [hname, field?_size]
        refine Schema.reads_known hf (Field.reads_structured rfl ?_)
        rw [hvalue]
        exact hread q hq _
      · obtain ⟨f, hf⟩ := Option.isSome_iff_exists.mp hsome
        exact Schema.reads_known hf (f.reads_denoted hv)
    obtain ⟨pairs, rfl, hall⟩ := Schema.exists_paired hchoose
    have htakes : schema.Takes pairs := by
      refine ⟨fun q hq => hoffer.written _ (List.mem_map_of_mem hq), fun q hq => (hall q hq).1, ?_⟩
      have honce := hoffer.once
      rwa [List.map_map] at honce
    rw [Schema.ofText, (Schema.readText_stored hbefore hlast htakes).readWhole hbehind]
    exact stored_size hoffer (fun q hq => (hall q hq).2) (.refl _)
  value depth ms last rest hoffer hlast hrest hnodup hvalues := by
    have hchoose : ∀ m ∈ ms, ∃ v, Restores (readValue depth) m.value v ∧ Fits read m v := by
      intro m hm
      refine hoffer.exists_fits hm (fun q hq _ hvalue => ?_) (fun v _ hv => hv.restores depth)
        (hvalues m hm)
      rw [hvalue]
      exact hread q hq depth
    obtain ⟨pairs, rfl, hall⟩ := Schema.exists_paired hchoose
    rw [List.map_map] at hnodup
    have hobject := Restores.members hlast fun q hq =>
      ⟨hoffer.written _ (List.mem_map_of_mem hq), (hall q hq).1⟩
    rw [hobject rest hrest]
    refine stored_size hoffer (fun q hq => (hall q hq).2) (gathered_perm ?_)
    rwa [List.map_map]

/-- If the characters are no value, every offer that has them is refused. -/
theorem givesSize_refused {chars : List Char}
    (hread : ∀ depth, Yields (readValue depth) chars none) : GivesSize (some chars) none := by
  have hvalue {ms : List Member} (hoffer : IsOffer ms (some chars)) {m : Member} (hm : m ∈ ms)
      (hname : m.name = "size") : m.value = chars :=
    (Option.mem_some.mp (hoffer.value_mem hm hname)).symm
  have hsome {ms : List Member} (hoffer : IsOffer ms (some chars)) : ∃ m ∈ ms, m.name = "size" := by
    obtain ⟨m, hkept, -⟩ := List.map_eq_singleton_iff.mp hoffer.size
    have hm : m ∈ ms.filter (·.name == "size") := hkept ▸ List.mem_cons_self
    obtain ⟨hm, hname⟩ := List.mem_filter.mp hm
    exact ⟨m, hm, by simpa using hname⟩
  constructor
  · intro ms last before behind hoffer hlast hbefore hbehind
    have hothers : ∀ m ∈ ms, m.name ≠ "size" → ∃ v, schema.Reads m v := by
      intro m hm hname
      cases hf : schema.field? m.name with
      | none => exact ⟨.null, Schema.reads_unknown hf (hoffer.unknown m hm hf)⟩
      | some f =>
        obtain ⟨v, hv, -⟩ := hoffer.known m hm (by rw [hf]; rfl) hname
        exact ⟨v, Schema.reads_known hf (f.reads_denoted hv)⟩
    have hrefused : ∀ m ∈ ms, m.name = "size" →
        ∀ r, Yields (Schema.readField sizeField r) (m.behindColon ++ m.value) none := by
      intro m hm hname r
      rw [hvalue hoffer hm hname]
      exact Schema.readField_refused (hoffer.written m hm).behindColon rfl (hread _)
    have hdocument := Schema.readText_refused hbefore hlast hoffer.written field?_size hothers
      hrefused (hsome hoffer)
    rw [Schema.ofText, hdocument.readWhole hbehind]
    rfl
  · intro depth ms last rest hoffer hlast hrest _ hvalues
    have hnone : ∀ m ∈ ms, m.name = "size" → ∀ soFar, Adds (gatherMember depth) soFar m none := by
      intro m hm hname soFar
      refine Adds.gather (hoffer.written m hm).toIsBlank (v := none) ?_ soFar
      rw [hvalue hoffer hm hname]
      exact hread depth
    have hall : ∀ m ∈ ms, ∀ soFar, ∃ result, Adds (gatherMember depth) soFar m result := by
      intro m hm soFar
      have hblank := (hoffer.written m hm).toIsBlank
      by_cases hname : m.name = "size"
      · exact ⟨none, hnone m hm hname soFar⟩
      cases hf : schema.field? m.name with
      | none =>
        obtain ⟨v, hv⟩ := hvalues m hm hf
        exact ⟨_, .gather hblank hv.yields soFar⟩
      | some f =>
        obtain ⟨v, hv, -⟩ := hoffer.known m hm (by rw [hf]; rfl) hname
        exact ⟨_, .gather hblank (hv.restores depth).yields soFar⟩
    obtain ⟨m, hm, hname⟩ := hsome hoffer
    have hobject := yields_object hlast hoffer.written
      (addsAll_refused hall hm (hnone m hm hname) [])
    rw [hobject rest hrest]
    rfl

/-- Characters that are a size, or none, are so in every offer. -/
theorem SizeIs.gives {chars : List Char} (h : SizeIs chars size) :
    GivesSize (some chars) size := by
  obtain ⟨v, hread, rfl⟩ := h
  cases v with
  | none => exact givesSize_refused hread
  | some v =>
    have hrestores : ∀ q ∈ some (chars, v), ∀ depth, Restores (readValue depth) q.1 q.2 :=
      fun q hq depth => Option.mem_some.mp hq ▸ (hread depth).restores
    simpa using givesSize_read hrestores

end Offers

/-! ### Exactly or not at all -/

/-- **Sizes are exact or refused.** Every numeral below ten to the 308th is the size if it fits 64
bits, and counts as the largest size if it does not; text of its digits, with zeros before them and
a plus sign, between blanks, is the size if that fits and is refused if it does not; every numeral
below zero and every other text is refused; and without a size there are no bytes. -/
theorem sizes_exact :
    (∀ n < 10 ^ 308,
      GivesSize (some (Nat.toDigits 10 n)) (some (min n (2 ^ 64 - 1)))) ∧
    (∀ (n zeros : Nat) (pad sign behind w : List Char), (∀ c ∈ pad, Text.isBlank c = true) →
      (∀ c ∈ behind, Text.isBlank c = true) → Text.IsPlus sign →
      Spells w (pad ++ (sign ++ (List.replicate zeros '0' ++ Nat.toDigits 10 n) ++ behind)) →
      GivesSize (some ('"' :: (w ++ ['"']))) (if n < 2 ^ 64 then some n else none)) ∧
    (∀ n, 0 < n → GivesSize (some ('-' :: Nat.toDigits 10 n)) none) ∧
    (∀ s w, Spells w s → (¬ ∃ sign digits, Text.IsPlus sign ∧ digits ≠ [] ∧
      (∀ c ∈ digits, c.isDigit = true) ∧ Text.trimBlanks s = sign ++ digits) →
      GivesSize (some ('"' :: (w ++ ['"']))) none) ∧
    GivesSize none (some 0) := by
  refine ⟨fun n hn => (sizeIs_numeral hn).gives, ?_, fun n hn => (sizeIs_minus hn).gives, ?_, ?_⟩
  · intro n zeros pad sign behind w hpad hbehind hsign hspells
    have hdigits : ∀ c ∈ List.replicate zeros '0' ++ Nat.toDigits 10 n, c.isDigit = true := by
      intro c hc
      rcases List.mem_append.mp hc with hc | hc
      · rw [List.eq_of_mem_replicate hc]
        rfl
      · exact Nat.isDigit_of_mem_toDigits (by decide) (by decide) hc
    have hvalue : Nat.ofDigitChars 10 (List.replicate zeros '0' ++ Nat.toDigits 10 n) 0 = n := by
      rw [Nat.ofDigitChars_append, Nat.ofDigitChars_replicate_zero, Nat.mul_zero,
        Nat.ofDigitChars_toDigits (by decide) (by decide)]
    have hne : List.replicate zeros '0' ++ Nat.toDigits 10 n ≠ [] :=
      List.append_ne_nil_of_right_ne_nil _ Nat.toDigits_ne_nil
    rw [← String.toList_ofList (l := _ ++ _)] at hspells
    exact (sizeIs_string hspells
      (sizeOf?_digits (String.toList_ofList) hpad hbehind hsign hne hdigits hvalue)).gives
  · intro s w hspells hother
    rw [← String.toList_ofList (l := s)] at hspells hother
    exact (sizeIs_string hspells (sizeOf?_text hother)).gives
  · have hrestores : ∀ q ∈ (none : Option (List Char × Value)), ∀ depth,
        Restores (readValue depth) q.1 q.2 := by simp
    simpa using givesSize_read hrestores

/-- Two to the sixty-fourth in an offer with a number that is out of range under an unknown key, and
text that is a size or none. -/
theorem sized_offer :
    let offer := [("x", "[1e999]".toList), ("size", "18446744073709551616".toList),
      ("name", "null".toList)]
    18446744073709551616 < 10 ^ 308 ∧
      (schema.ofText (encoded (Layout.compact.object offer))).toOption.map (·.size.toNat) =
        some 18446744073709551615 ∧
      GivesSize (some "\" +007\"".toList) (some 7) ∧ 0 < 1 ∧
      GivesSize (some "-1".toList) none ∧
      (¬ ∃ sign digits, Text.IsPlus sign ∧ digits ≠ [] ∧ (∀ c ∈ digits, c.isDigit = true) ∧
        Text.trimBlanks "five".toList = sign ++ digits) ∧
      GivesSize (some "\"five\"".toList) none := by
  intro offer
  obtain ⟨hnumeral, hdigits, hminus, hother, -⟩ := sizes_exact
  have hrange : 18446744073709551616 < 10 ^ 308 :=
    Nat.lt_of_lt_of_le (by norm_num : _ < 10 ^ 20) (Magnitude.pow_ten_mono (by decide))
  have hlist : IsValue "[1e999]".toList := by
    have hexponent : IsExponent ('e' :: ([] ++ ['9', '9', '9'])) :=
      .digits (by decide) (by decide) (by simp [AllDigits])
    have hnumber : IsNumber ['1', 'e', '9', '9', '9'] :=
      ⟨[], ['1'], [], _, by decide, .digits (by decide) (by simp [AllDigits]), .none,
        hexponent, rfl⟩
    have hblank : Member.IsBlank { value := ['1', 'e', '9', '9', '9'] } :=
      ⟨allBlank_nil, allBlank_nil, allBlank_nil, allBlank_nil⟩
    have hlist : IsValue (Container.list.chars [{ value := ['1', 'e', '9', '9', '9'] }] []) :=
      .container .list allBlank_nil (by simpa using hblank) (by simpa using IsStringBody.nil)
        (by simpa using IsValue.number hnumber)
    exact hlist
  have hoffer : IsOffer (offer.map Layout.compact.member)
      (some (Nat.toDigits 10 18446744073709551616)) := by
    refine ⟨fun m hm => ?_, by decide, by decide, fun m hm => ?_, fun m hm => ?_⟩
    · obtain ⟨p, -, rfl⟩ := List.mem_map.mp hm
      exact Layout.isBlank_compact.isWritten p
    all_goals
      simp only [offer, List.map_cons, List.map_nil, List.mem_cons, List.not_mem_nil,
        or_false] at hm
    · rcases hm with rfl | rfl | rfl
      · exact fun hknown => absurd hknown (by decide)
      · exact fun _ hne => absurd rfl hne
      · exact fun _ _ => ⟨.null, .null, Or.inl rfl⟩
    · rcases hm with rfl | rfl | rfl
      · exact fun _ => hlist
      · exact fun hunknown => absurd hunknown (by decide)
      · exact fun hunknown => absurd hunknown (by decide)
  have hfive : ¬ ∃ sign digits, Text.IsPlus sign ∧ digits ≠ [] ∧
      (∀ c ∈ digits, c.isDigit = true) ∧ Text.trimBlanks "five".toList = sign ++ digits := by
    rintro ⟨sign, digits, hsign, -, hall, htrim⟩
    have htext : Text.trimBlanks "five".toList = ['f', 'i', 'v', 'e'] := by decide
    have hletter : ∀ sign ∈ [[], ['+']], 'f' ∉ sign := by decide
    have hmem : 'f' ∈ sign ++ digits := by
      rw [← htrim, htext]
      exact List.mem_cons_self
    rcases List.mem_append.mp hmem with hf | hf
    · exact hletter sign hsign hf
    · exact absurd (hall 'f' hf) (by decide)
  refine ⟨hrange, ?_, ?_, Nat.one_pos, ?_, hfive, ?_⟩
  · have htext := (hnumeral 18446744073709551616 hrange).text _ [] [] [] hoffer allBlank_nil
      allBlank_nil allBlank_nil
    simpa [Layout.object, Layout.compact] using htext
  · exact hdigits 7 2 [' '] ['+'] [] " +007".toList (List.forall_mem_singleton.mpr (by decide))
      (List.forall_mem_nil _) (by simp [Text.IsPlus]) (spells_escaped " +007".toList)
  · exact hminus 1 Nat.one_pos
  · exact hother "five".toList "five".toList (spells_escaped "five".toList) hfive

end FileOffer
end FileReceiver
