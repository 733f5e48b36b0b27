/-
# Objects are read

An object is read member by member, and what is made of a member is up to the
caller, who may also refuse it. So the outcome of an object is the outcome of
its members, one after the other (`AddsAll`, `readMembers_object`), whatever
blanks stand between the tokens and however the keys are spelled. Read as a
value, an object comes back with its members gathered by their keys
(`Restores.members`). An object is written in one of two ways, with nothing
between its tokens or on lines of its own (`Layout`), and both are objects of
this kind.

Key definitions: `Json.Restores`, `Json.Yields`, `Json.Member.IsWritten`,
`Json.AddsAll`, `Json.gathered`, `Json.Layout`.
Key theorems: `Json.readMembers_object`, `Json.Restores.scalar`,
`Json.Restores.members`, `Json.Value.compactChars_object`,
`Json.Value.prettyChars_object`.
-/
import FileReceiver.Proofs.Grammar

namespace FileReceiver.Json

open Text (encoded)

/-! ### Outcomes -/

/-- A reader gets a result back from the characters that are written for it. -/
def Restores {α : Type} (reader : Reader α) (chars : List Char) (a : α) : Prop :=
  ∀ rest, Stops rest → reader (encoded chars ++ rest) = .ok (a, rest)

/-- A reader makes a result of characters, or it refuses them, whatever follows. -/
def Yields {α : Type} (reader : Reader α) (chars : List Char) (result : Option α) : Prop :=
  ∀ rest, Stops rest → (reader (encoded chars ++ rest)).toOption = result.map (·, rest)

theorem toOption_eq_some {ε α : Type} {result : Except ε α} {a : α}
    (h : result.toOption = some a) : result = .ok a := by
  cases result with
  | error e => cases h
  | ok a' => exact congrArg _ (Option.some.inj h)

/-- A reader's outcome decides what comes after it. -/
theorem toOption_bind {ε α β : Type} {x : Except ε (α × List UInt8)} {result : Option α}
    {rest : List UInt8} (h : x.toOption = result.map (·, rest))
    (next : α × List UInt8 → Except ε β) :
    (x >>= next).toOption = result.bind fun a => (next (a, rest)).toOption := by
  cases x with
  | error e =>
    obtain rfl : result = none := Option.map_eq_none_iff.mp h.symm
    rfl
  | ok p =>
    obtain ⟨a, rfl, rfl⟩ := Option.map_eq_some_iff.mp h.symm
    rfl

section Outcomes

variable {α : Type} {reader : Reader α} {chars blanks : List Char} {a : α} {result : Option α}

theorem Restores.yields (h : Restores reader chars a) : Yields reader chars (some a) := by
  intro rest hrest
  rw [h rest hrest]
  rfl

theorem Yields.restores (h : Yields reader chars (some a)) : Restores reader chars a :=
  fun rest hrest => toOption_eq_some (h rest hrest)

/-- The outcome of a whole document, in which blanks may follow the value. -/
theorem Yields.readWhole (h : Yields reader chars result) (hblanks : AllBlank blanks) :
    (readWhole reader (encoded (chars ++ blanks))).toOption = result := by
  have hstops : Stops (encoded blanks) := by
    have hend : Stops (encoded blanks ++ []) := hblanks.stops trivial
    rwa [List.append_nil] at hend
  have hskip : skipBlanks (encoded blanks) = [] := by
    have hnone := skipBlanks_append hblanks []
    rwa [List.append_nil] at hnone
  rw [Text.encoded_append, Json.readWhole, toOption_bind (h _ hstops)]
  dsimp only
  rw [hskip]
  cases result <;> rfl

/-- Reading a whole document. -/
theorem readWhole_back (h : Restores reader chars a) :
    readWhole reader (encoded chars) = .ok a := by
  have hread := h.yields.readWhole allBlank_nil
  rw [List.append_nil] at hread
  exact toOption_eq_some hread

end Outcomes

/-! ### Members -/

namespace Member

/-- What follows the key of a member, from behind its closing quote to the end of the value. -/
def tail (m : Member) : List Char :=
  m.behindKey ++ ':' :: (m.behindColon ++ m.value)

/-- Only blanks stand between the tokens, and the key is spelled as the name. -/
structure IsWritten (m : Member) : Prop extends m.IsBlank where
  key : Spells m.key m.name.toList

end Member

theorem encoded_member (m : Member) (input : List UInt8) :
    encoded (Container.object.member m) ++ input = encoded m.before ++ code '"' ::
      (encoded m.key ++ code '"' :: (encoded m.tail ++ (encoded m.behind ++ input))) := by
  have hcolon (w : List Char) : encoded (':' :: w) = code ':' :: encoded w :=
    Text.encoded_cons_ascii (by decide) w
  change encoded (m.before ++ (m.keyChars ++ (m.behindColon ++ (m.value ++ m.behind)))) ++ input = _
  rw [Text.encoded_append, List.append_assoc, Text.encoded_append, List.append_assoc,
    encoded_keyChars, Member.tail, Text.encoded_append m.behindKey, hcolon]
  simp only [Text.encoded_append, List.append_assoc, List.cons_append]

section Members

variable {α : Type} {add : α → String → Reader α} {a a' : α} {result : Option α}
  {m : Member} {ms : List Member} {last : List Char}

/-- A member makes of one result another, or it is refused. -/
def Adds (add : α → String → Reader α) (a : α) (m : Member) (result : Option α) : Prop :=
  Yields (add a m.name) m.tail result

/-- Members make of one result another, one after the other, or one of them is refused. -/
inductive AddsAll (add : α → String → Reader α) : α → List Member → Option α → Prop
  | nil (a : α) : AddsAll add a [] (some a)
  | cons {a a' : α} {result : Option α} {m : Member} {ms : List Member}
      (hm : Adds add a m (some a')) (hms : AddsAll add a' ms result) :
      AddsAll add a (m :: ms) result
  | refused {a : α} {m : Member} {ms : List Member} (hm : Adds add a m none) :
      AddsAll add a (m :: ms) none

/-- If a member is refused whatever came before it, then so are members with it among them. -/
theorem addsAll_refused (hms : ∀ m ∈ ms, ∀ a, ∃ result, Adds add a m result) (hm : m ∈ ms)
    (hrefused : ∀ a, Adds add a m none) (a : α) : AddsAll add a ms none := by
  induction ms generalizing a with
  | nil => cases hm
  | cons m' ms ih =>
    obtain ⟨_ | a', hfirst⟩ := hms m' List.mem_cons_self a
    · exact .refused hfirst
    rcases List.mem_cons.mp hm with rfl | hm
    · exact .refused (hrefused a)
    · exact .cons hfirst (ih (fun m hm => hms m (List.mem_cons_of_mem _ hm)) hm a')

theorem readMembers_blanks {s : List Char} (hs : AllBlank s) (fuel : Nat) (isFirst : Bool)
    (input : List UInt8) :
    readMembers add (fuel + 1) isFirst a (encoded s ++ input) =
      readMembers add (fuel + 1) isFirst a input := by
  rw [readMembers, readMembers, skipBlanks_append hs]

/-- A member, from behind the quote that opens its key. -/
theorem readMembers_member (hm : m.IsWritten) (hadds : Adds add a m result) {rest : List UInt8}
    (hrest : Stops rest) (next : α × List UInt8 → Except ReadError (α × List UInt8)) :
    (do
      let (key, input) ← readString (encoded m.key ++ code '"' :: (encoded m.tail ++ rest))
      let (soFar, input) ← add a key input
      next (soFar, input)).toOption = result.bind fun a' => (next (a', rest)).toOption := by
  rw [readString_spelled hm.key]
  exact toOption_bind (hadds rest hrest) next

/-- Members as they stand behind the opening brace, or behind another member. -/
def pendingMembers (isFirst : Bool) (ms : List Member) : List Char :=
  match isFirst with
  | true => Container.object.members ms
  | false => Container.object.more ms

/-- The first of the members that are left. -/
theorem readMembers_step (hlast : AllBlank last) (hm : m.IsWritten) (hadds : Adds add a m result)
    (fuel : Nat) (isFirst : Bool) (rest : List UInt8) :
    (readMembers add (fuel + 2) isFirst a
      (encoded (pendingMembers isFirst (m :: ms) ++ (last ++ ['\x7d'])) ++ rest)).toOption =
      result.bind fun a' => (readMembers add (fuel + 1) false a'
        (encoded (pendingMembers false ms ++ (last ++ ['\x7d'])) ++ rest)).toOption := by
  have htail := hm.behind.stops (stops_more .object ms hlast rest)
  have hmember := readMembers_member hm hadds htail
    fun p => readMembers add (fuel + 1) false p.1 p.2
  simp only [readMembers_blanks hm.behind] at hmember
  refine Eq.trans ?_ hmember
  have hbytes : encoded (Container.object.member m ++ (Container.object.more ms ++
      (last ++ ['\x7d']))) ++ rest = encoded m.before ++ code '"' :: (encoded m.key ++ code '"' ::
        (encoded m.tail ++ (encoded m.behind ++
          (encoded (Container.object.more ms ++ (last ++ ['\x7d'])) ++ rest)))) := by
    rw [Text.encoded_append, List.append_assoc, encoded_member]
  cases isFirst with
  | true =>
    rw [pendingMembers, Container.members, List.append_assoc, hbytes, readMembers,
      skipBlanks_append hm.before, skipBlanks_cons rfl]
    rfl
  | false =>
    have hcomma : encoded (pendingMembers false (m :: ms) ++ (last ++ ['\x7d'])) ++ rest =
        code ',' :: (encoded (Container.object.member m ++ (Container.object.more ms ++
          (last ++ ['\x7d']))) ++ rest) := by
      rw [pendingMembers, Container.more, List.flatMap_cons, ← Container.more, List.cons_append,
        List.cons_append, Text.encoded_cons_ascii (by decide), List.append_assoc]
      rfl
    rw [hcomma, hbytes, readMembers, skipBlanks_cons rfl]
    simp only [skipBlanks_append hm.before]
    rw [skipBlanks_cons rfl]
    rfl

/-- The outcome of an object, from behind its opening brace or behind one of its members, is the
outcome of the members that are left. -/
theorem readMembers_pending (hlast : AllBlank last) (hms : ∀ m ∈ ms, m.IsWritten)
    (h : AddsAll add a ms result) {fuel : Nat} (hfuel : ms.length < fuel) (isFirst : Bool)
    (rest : List UInt8) :
    (readMembers add fuel isFirst a
      (encoded (pendingMembers isFirst ms ++ (last ++ ['\x7d'])) ++ rest)).toOption =
      result.map (·, rest) := by
  obtain ⟨fuel, rfl⟩ := Nat.exists_eq_succ_of_ne_zero (Nat.ne_of_gt (Nat.zero_lt_of_lt hfuel))
  induction h generalizing fuel isFirst with
  | nil a =>
    have hnone : pendingMembers isFirst [] = [] := by cases isFirst <;> rfl
    rw [hnone, List.nil_append]
    change (readMembers add _ _ _ (encoded (last ++ [Container.object.closingChar]) ++ _)).toOption
      = _
    rw [encoded_last, readMembers_blanks hlast, readMembers, skipBlanks_cons rfl]
    rfl
  | @cons a a' result m ms hadds _ ih =>
    obtain ⟨fuel, rfl⟩ := Nat.exists_eq_succ_of_ne_zero
      (Nat.ne_of_gt (Nat.zero_lt_of_lt (Nat.lt_of_succ_lt_succ hfuel)))
    rw [readMembers_step hlast (hms m List.mem_cons_self) hadds]
    exact ih (fun m hm => hms m (List.mem_cons_of_mem _ hm)) false fuel
      (Nat.lt_of_succ_lt_succ hfuel)
  | @refused a m ms hadds =>
    obtain ⟨fuel, rfl⟩ := Nat.exists_eq_succ_of_ne_zero
      (Nat.ne_of_gt (Nat.zero_lt_of_lt (Nat.lt_of_succ_lt_succ hfuel)))
    rw [readMembers_step hlast (hms m List.mem_cons_self) hadds]
    rfl

/-- There are no more members than bytes. -/
theorem length_le_members (ms : List Member) :
    ms.length ≤ (encoded (Container.object.members ms)).length := by
  have hmember (m : Member) : 0 < (encoded (Container.object.member m)).length := by
    have hbytes := congrArg List.length (encoded_member m [])
    rw [List.append_nil, List.length_append, List.length_cons] at hbytes
    omega
  have hmore (ms : List Member) : ms.length ≤ (encoded (Container.object.more ms)).length := by
    induction ms with
    | nil => exact Nat.le_refl _
    | cons m ms ih =>
      rw [Container.more, List.flatMap_cons, ← Container.more, Text.encoded_append,
        List.length_append, Text.encoded_cons_ascii (by decide), List.length_cons, List.length_cons]
      omega
  cases ms with
  | nil => exact Nat.le_refl _
  | cons m ms =>
    have hm := hmember m
    have hms := hmore ms
    rw [Container.members, Text.encoded_append, List.length_append, List.length_cons]
    omega

theorem encoded_object (ms : List Member) (last : List Char) (rest : List UInt8) :
    encoded (Container.object.chars ms last) ++ rest = code '\x7b' ::
      (encoded (Container.object.members ms ++ (last ++ ['\x7d'])) ++ rest) := by
  rw [Container.chars, Text.encoded_cons_ascii (by decide)]
  rfl

/-- **The outcome of an object is the outcome of its members**, read from behind the brace. -/
theorem readMembers_object (hlast : AllBlank last) (hms : ∀ m ∈ ms, m.IsWritten)
    (h : AddsAll add a ms result) {input : List UInt8} (rest : List UInt8)
    (hinput : input = encoded (Container.object.members ms ++ (last ++ ['\x7d'])) ++ rest) :
    (readMembers add (input.length + 1) true a input).toOption = result.map (·, rest) := by
  have hfuel : ms.length < input.length + 1 := by
    have hlength := length_le_members ms
    rw [hinput, List.length_append, Text.encoded_append, List.length_append]
    omega
  have hread := readMembers_pending hlast hms h hfuel true rest
  rwa [pendingMembers, ← hinput] at hread

end Members

/-! ### Values -/

/-- The members of an object as they are kept when it is read as a value. -/
def gathered (members : List (String × Value)) : List (String × Value) :=
  members.foldl (fun soFar m => insertMember m.1 m.2 soFar) []

theorem readValue_skipBlanks (depth : Nat) (input : List UInt8) :
    readValue depth (skipBlanks input) = readValue depth input := by
  cases depth <;> rw [readValue, readValue, skipBlanks_skipBlanks]

theorem readValue_append {s : List Char} (h : AllBlank s) (depth : Nat) (input : List UInt8) :
    readValue depth (encoded s ++ input) = readValue depth input := by
  cases depth <;> rw [readValue, readValue, skipBlanks_append h]

/-- What begins like a scalar is read as one, at any depth. -/
theorem readValue_scalar {b : UInt8} (hb : BeginsScalar b) (depth : Nat) (rest : List UInt8) :
    readValue depth (b :: rest) = readScalar b rest := by
  cases depth with
  | zero =>
    rw [readValue, skipBlanks_cons hb.noBlank]
    exact if_neg (not_or.mpr ⟨hb.noList, hb.noObject⟩)
  | succ depth =>
    rw [readValue, skipBlanks_cons hb.noBlank]
    dsimp only
    rw [if_neg hb.noList, if_neg hb.noObject]

/-- **A scalar is read**, at any depth, as the value that it denotes. -/
theorem Denotes.restores {w : List Char} {v : Value} (h : Denotes w v) (depth : Nat) :
    Restores (readValue depth) w v := by
  intro rest hrest
  obtain ⟨b, tail, hbytes, hb, hread⟩ := readScalar_denoted h hrest
  rw [hbytes, List.cons_append, readValue_scalar hb, hread]

/-- A scalar is read back. -/
theorem Restores.scalar {v : Value} (hv : v.IsScalar) (depth : Nat) :
    Restores (readValue depth) (scalarChars v) v :=
  (denotes_scalarChars hv).restores depth

/-- What becomes of a member of an object that is read as a value. -/
def gatherMember (depth : Nat) (soFar : List (String × Value)) (key : String) :
    Reader (List (String × Value)) := fun input => do
  let afterColon ← readColon input
  let (value, rest) ← readValue depth afterColon
  .ok (insertMember key value soFar, rest)

/-- The colon of a member. -/
theorem readColon_tail {m : Member} (hm : m.IsBlank) (rest : List UInt8) :
    readColon (encoded m.tail ++ rest) =
      .ok (encoded m.behindColon ++ (encoded m.value ++ rest)) := by
  have hbytes : encoded m.tail ++ rest = encoded m.behindKey ++
      code ':' :: (encoded m.behindColon ++ (encoded m.value ++ rest)) := by
    rw [Member.tail, Text.encoded_append, Text.encoded_cons_ascii (by decide), Text.encoded_append]
    simp only [List.append_assoc, List.cons_append, code]
  rw [readColon, hbytes, skipBlanks_append hm.behindKey, skipBlanks_cons rfl]
  rfl

theorem Adds.gather {depth : Nat} {m : Member} {v : Option Value} (hm : m.IsBlank)
    (h : Yields (readValue depth) m.value v) (soFar : List (String × Value)) :
    Adds (gatherMember depth) soFar m (v.map (insertMember m.name · soFar)) := by
  intro rest hrest
  have hread := h rest hrest
  rw [← readValue_append hm.behindColon] at hread
  rw [gatherMember, readColon_tail hm]
  refine (toOption_bind hread _).trans ?_
  cases v <;> rfl

theorem AddsAll.gather {depth : Nat} {ms : List (Member × Value)}
    (hms : ∀ m ∈ ms, m.1.IsBlank ∧ Restores (readValue depth) m.1.value m.2)
    (soFar : List (String × Value)) :
    AddsAll (gatherMember depth) soFar (ms.map (·.1))
      (some ((ms.map fun m => (m.1.name, m.2)).foldl
        (fun soFar m => insertMember m.1 m.2 soFar) soFar)) := by
  induction ms generalizing soFar with
  | nil => exact .nil soFar
  | cons m ms ih =>
    obtain ⟨hblank, hvalue⟩ := hms m List.mem_cons_self
    exact .cons (.gather hblank hvalue.yields soFar)
      (ih (fun m' hm' => hms m' (List.mem_cons_of_mem _ hm')) _)

/-- The outcome of an object that is read as a value. -/
theorem yields_object {depth : Nat} {ms : List Member} {last : List Char} (hlast : AllBlank last)
    (hms : ∀ m ∈ ms, m.IsWritten) {members : Option (List (String × Value))}
    (h : AddsAll (gatherMember depth) [] ms members) :
    Yields (readValue (depth + 1)) (Container.object.chars ms last) (members.map .object) := by
  intro rest _
  have hread := readMembers_object hlast hms h rest rfl
  rw [encoded_object, readValue, skipBlanks_cons rfl]
  dsimp only
  rw [if_neg (by decide), if_pos rfl]
  refine (toOption_bind hread _).trans ?_
  cases members <;> rfl

/-- **An object is read as a value** if its members are, with its members gathered by their keys. -/
theorem Restores.members {depth : Nat} {ms : List (Member × Value)} {last : List Char}
    (hlast : AllBlank last)
    (hms : ∀ m ∈ ms, m.1.IsWritten ∧ Restores (readValue depth) m.1.value m.2) :
    Restores (readValue (depth + 1)) (Container.object.chars (ms.map (·.1)) last)
      (.object (gathered (ms.map fun m => (m.1.name, m.2)))) := by
  have hwritten : ∀ m ∈ ms.map (·.1), m.IsWritten := by
    intro m hm
    obtain ⟨p, hp, rfl⟩ := List.mem_map.mp hm
    exact (hms p hp).1
  have hall := AddsAll.gather (fun m hm => ⟨(hms m hm).1.toIsBlank, (hms m hm).2⟩) []
  exact (yields_object hlast hwritten hall).restores

/-! ### Layouts -/

/-- How an object is set out: what stands before each key, behind each colon and before the closing
brace. -/
structure Layout where
  before : List Char
  colon : List Char
  last : List Char

namespace Layout

variable (l : Layout)

/-- A member with the characters of its value. -/
def member (m : String × List Char) : Member where
  name := m.1
  before := l.before
  key := m.1.toList.flatMap escapedChar
  behindColon := l.colon
  value := m.2

/-- An object with the given members. -/
def object (ms : List (String × List Char)) : List Char :=
  Container.object.chars (ms.map l.member) l.last

/-- Only blanks are put between the tokens. -/
structure IsBlank : Prop where
  before : AllBlank l.before
  colon : AllBlank l.colon
  last : AllBlank l.last

variable {l} in
theorem IsBlank.isWritten (hl : l.IsBlank) (m : String × List Char) : (l.member m).IsWritten where
  before := hl.before
  behindKey := allBlank_nil
  behindColon := hl.colon
  behind := allBlank_nil
  key := spells_escaped m.1.toList

/-- Nothing between the tokens. -/
def compact : Layout := ⟨[], [], []⟩

/-- Every member on a line of its own, of an object that stands at a level. -/
def pretty (level : Nat) : Layout :=
  ⟨Value.newLine (level + 1), [' '], Value.newLine level⟩

theorem isBlank_compact : compact.IsBlank := ⟨allBlank_nil, allBlank_nil, allBlank_nil⟩

theorem isBlank_pretty (level : Nat) : (pretty level).IsBlank := by
  have hspace : AllBlank [' '] := List.forall_mem_singleton.mpr (by decide)
  have hline : ∀ level, AllBlank (Value.newLine level) := by
    intro level c hc
    rcases List.mem_cons.mp hc with rfl | hc
    · decide
    · rw [List.eq_of_mem_replicate hc]
      decide
  exact ⟨hline (level + 1), hspace, hline level⟩

end Layout

namespace Value

theorem compactMembers_cons (m : String × Value) (ms : List (String × Value)) :
    compactMembers (m :: ms) = Container.object.members ((m :: ms).map fun m =>
      Layout.compact.member (m.1, m.2.compactChars)) := by
  induction ms generalizing m with
  | nil => simp [compactMembers, Container.members, Container.member, Container.more,
      Layout.member, Layout.compact, Member.keyChars, stringChars]
  | cons m' ms ih =>
    rw [compactMembers, ih]
    · simp [Container.members, Container.member, Container.more, Layout.member, Layout.compact,
        Member.keyChars, stringChars]
    · simp

/-- An object without blanks. -/
theorem compactChars_object (members : List (String × Value)) :
    (object members).compactChars =
      Layout.compact.object (members.map fun m => (m.1, m.2.compactChars)) := by
  cases members with
  | nil => rfl
  | cons m ms =>
    rw [compactChars, compactMembers_cons, Layout.object, List.map_map]
    rfl

theorem prettyMembers_cons (level : Nat) (m : String × Value) (ms : List (String × Value)) :
    prettyMembers (level + 1) (m :: ms) = Container.object.members ((m :: ms).map fun m =>
      (Layout.pretty level).member (m.1, m.2.prettyChars (level + 1))) := by
  induction ms generalizing m with
  | nil => simp [prettyMembers, Container.members, Container.member, Container.more,
      Layout.member, Layout.pretty, Member.keyChars, stringChars]
  | cons m' ms ih =>
    rw [prettyMembers, ih]
    · simp [Container.members, Container.member, Container.more, Layout.member, Layout.pretty,
        Member.keyChars, stringChars]
    · simp

/-- An object that has members, over several lines. -/
theorem prettyChars_object (level : Nat) {members : List (String × Value)} (h : members ≠ []) :
    (object members).prettyChars level =
      (Layout.pretty level).object (members.map fun m => (m.1, m.2.prettyChars (level + 1))) := by
  obtain ⟨m, ms, rfl⟩ := List.exists_cons_of_ne_nil h
  rw [prettyChars, prettyMembers_cons, Layout.object, List.map_map]
  · simp [Container.chars, Container.opening, Container.closingChar, Layout.pretty,
      Function.comp_def]
  · simp

end Value

/-- **An object is read back** if its members are, with its members gathered by their keys. -/
theorem Restores.object {l : Layout} (hl : l.IsBlank) {depth : Nat}
    {members : List (String × List Char × Value)}
    (h : ∀ m ∈ members, Restores (readValue depth) m.2.1 m.2.2) :
    Restores (readValue (depth + 1)) (l.object (members.map fun m => (m.1, m.2.1)))
      (.object (gathered (members.map fun m => (m.1, m.2.2)))) := by
  have hms : ∀ m ∈ members.map fun m => (l.member (m.1, m.2.1), m.2.2),
      m.1.IsWritten ∧ Restores (readValue depth) m.1.value m.2 := by
    intro m hm
    obtain ⟨m', hm', rfl⟩ := List.mem_map.mp hm
    exact ⟨hl.isWritten _, h m' hm'⟩
  have hback := Restores.members hl.last hms
  rw [List.map_map, List.map_map] at hback
  rw [Layout.object, List.map_map]
  exact hback

end FileReceiver.Json
