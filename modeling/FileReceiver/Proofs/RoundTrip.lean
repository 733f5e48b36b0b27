/-
# Records are read back

A record is written as an object with all of its fields. If storing what has
been fetched from a field gives it back and touches no other field
(`Schema.IsLawful`), then a record comes back from its members in whatever
order they are stored. So a record that is written in either layout is read
back, directly from the text and also when the text is first read as a value,
whose members are sorted. More is read than what is written: a record may
leave fields out, have members with unknown keys, and spell its keys and
values in other ways (`Schema.Takes`).

Key definitions: `Json.Schema.IsLawful`, `Json.Schema.Takes`,
`Json.Schema.RoundTrips`.
Key theorems: `Json.gathered_perm`, `Json.Schema.IsLawful.storeMembers`,
`Json.Schema.readText_stored`, `Json.Schema.readText_refused`,
`Json.Schema.IsLawful.roundTrips`.
-/
import FileReceiver.Json.Record
import FileReceiver.Proofs.Objects

namespace FileReceiver.Json

open Text (encoded)

/-! ### Gathering -/

theorem insertMember_perm {key : String} (v : Value) {members : List (String × Value)}
    (h : key ∉ members.map (·.1)) : (insertMember key v members).Perm ((key, v) :: members) := by
  induction members with
  | nil => exact .refl _
  | cons m members ih =>
    obtain ⟨hne, hrest⟩ := not_or.mp (mt List.mem_cons.mpr h)
    rw [insertMember]
    split
    · exact .refl _
    · exact ((ih hrest).cons m).trans (.swap (key, v) m members)

/-- Gathering keeps members with different keys. -/
theorem gathered_perm {members : List (String × Value)} (h : (members.map (·.1)).Nodup) :
    (gathered members).Perm members := by
  have hfold : ∀ (members soFar : List (String × Value)),
      ((members ++ soFar).map (·.1)).Nodup →
      (members.foldl (fun soFar m => insertMember m.1 m.2 soFar) soFar).Perm
        (members ++ soFar) := by
    intro members
    induction members with
    | nil => exact fun soFar _ => .refl soFar
    | cons m members ih =>
      intro soFar hnodup
      have hmiddle : (members ++ m :: soFar).Perm (m :: members ++ soFar) := List.perm_middle
      have hnodup' := (hmiddle.map (·.1)).nodup_iff.mpr hnodup
      rw [List.map_append] at hnodup'
      have hfresh : m.1 ∉ soFar.map (·.1) :=
        (List.nodup_cons.mp (List.nodup_append.mp hnodup').2.1).1
      have hinsert : (insertMember m.1 m.2 soFar).Perm (m :: soFar) := insertMember_perm m.2 hfresh
      have hstep := (hinsert.append_left members)
      rw [List.foldl_cons]
      refine (ih _ ?_).trans (hstep.trans hmiddle)
      rw [(hstep.map (·.1)).nodup_iff, List.map_append]
      exact hnodup'
  have hperm := hfold members [] (by rwa [List.append_nil])
  rwa [List.append_nil] at hperm

variable {R : Type}

/-- A field reads characters as a value: anything, if it may hold lists and objects, else what
denotes a scalar. -/
def Field.Reads (f : Field R) (chars : List Char) (v : Value) : Prop :=
  if f.structured then Restores (readValue (depthLimit - 1)) chars v
  else Denotes chars v

theorem Field.reads_structured {f : Field R} (hf : f.structured = true) {chars : List Char}
    {v : Value} (h : Restores (readValue (depthLimit - 1)) chars v) : f.Reads chars v := by
  rwa [Reads, if_pos hf]

theorem Field.reads_denoted (f : Field R) {chars : List Char} {v : Value} (h : Denotes chars v) :
    f.Reads chars v := by
  unfold Reads
  split
  · exact h.restores _
  · exact h

theorem Field.reads_scalar (f : Field R) {v : Value} (hv : v.IsScalar) :
    f.Reads (scalarChars v) v :=
  f.reads_denoted (denotes_scalarChars hv)

/-- A field holds scalars. What has been fetched from it can be stored in it again, which touches
no other field. -/
structure Field.IsLens (f : Field R) (fields : List (Field R)) : Prop where
  scalar : ∀ r, (f.fetch r).IsScalar
  store : ∀ r before, ∃ after, f.store (f.fetch r) before = .ok after ∧ f.fetch after = f.fetch r ∧
    ∀ g ∈ fields, g.name ≠ f.name → g.fetch after = g.fetch before

namespace Schema

variable (schema : Schema R)

/-- The keys differ, each field has a part of the record to itself, and a record is no more than
its fields. -/
structure IsLawful : Prop where
  nodup : (schema.fields.map (·.name)).Nodup
  lens : ∀ f ∈ schema.fields, f.IsLens schema.fields
  ext : ∀ r r', (∀ f ∈ schema.fields, f.fetch r = f.fetch r') → r = r'

/-- The members of a record in the order of its fields. -/
def membersOf (r : R) : List (String × Value) :=
  schema.fields.map fun f => (f.name, f.fetch r)

variable {schema} {r : R}

theorem field?_of_mem (h : (schema.fields.map (·.name)).Nodup) {f : Field R}
    (hf : f ∈ schema.fields) : schema.field? f.name = some f := by
  have hfind : ∀ fields : List (Field R), (fields.map (·.name)).Nodup → f ∈ fields →
      fields.find? (·.name == f.name) = some f := by
    intro fields
    induction fields with
    | nil => exact fun _ hf => nomatch hf
    | cons g fields ih =>
      intro hnodup hmem
      rw [List.map_cons, List.nodup_cons] at hnodup
      rcases List.mem_cons.mp hmem with rfl | hmem
      · exact List.find?_cons_of_pos (beq_self_eq_true f.name)
      · have hne : g.name ≠ f.name := fun heq =>
          hnodup.1 (heq ▸ List.mem_map_of_mem hmem)
        rw [List.find?_cons_of_neg (by simpa using hne)]
        exact ih hnodup.2 hmem
  exact hfind schema.fields h hf

theorem field?_some {key : String} {f : Field R} (h : schema.field? key = some f) :
    f ∈ schema.fields ∧ f.name = key :=
  ⟨List.mem_of_find?_eq_some h, by simpa using List.find?_some h⟩

/-- What members of a record leave when they are stored in another one, among members with unknown
keys. -/
theorem IsLawful.store_some (h : schema.IsLawful) {members : List (String × Value)}
    (hmembers : ∀ m ∈ members, schema.field? m.1 = none ∨ m ∈ schema.membersOf r) (before : R) :
    ∃ after, schema.storeMembers members before = .ok after ∧
      ∀ g ∈ schema.fields, g.fetch after = g.fetch r ∨
        (g.name, g.fetch r) ∉ members ∧ g.fetch after = g.fetch before := by
  induction members generalizing before with
  | nil => exact ⟨before, rfl, fun g _ => Or.inr ⟨List.not_mem_nil, rfl⟩⟩
  | cons m members ih =>
    have hmembers' := fun m hm => hmembers m (List.mem_cons_of_mem _ hm)
    rcases hmembers m List.mem_cons_self with hunknown | hknown
    · obtain ⟨after, hrest, hfetch⟩ := ih hmembers' before
      refine ⟨after, ?_, fun g hg => ?_⟩
      · rw [storeMembers, List.foldlM_cons, hunknown]
        exact hrest
      · refine (hfetch g hg).imp_right fun ⟨hnot, hkept⟩ => ⟨fun hmem => ?_, hkept⟩
        rcases List.mem_cons.mp hmem with rfl | hmem
        · rw [field?_of_mem h.nodup hg] at hunknown
          cases hunknown
        · exact hnot hmem
    obtain ⟨f, hf, rfl⟩ := List.mem_map.mp hknown
    obtain ⟨between, hstore, hset, hothers⟩ := (h.lens f hf).store r before
    obtain ⟨after, hrest, hfetch⟩ := ih hmembers' between
    refine ⟨after, ?_, fun g hg => ?_⟩
    · rw [storeMembers, List.foldlM_cons, field?_of_mem h.nodup hf]
      change (f.store (f.fetch r) before >>= _) = _
      rw [hstore]
      exact hrest
    · rcases hfetch g hg with hsame | ⟨hnot, hkept⟩
      · exact Or.inl hsame
      by_cases hname : g.name = f.name
      · have hgf : g = f := by
          have hg' := field?_of_mem h.nodup hg
          rw [hname, field?_of_mem h.nodup hf] at hg'
          exact (Option.some.inj hg').symm
        rw [hgf] at hkept ⊢
        exact Or.inl (hkept.trans hset)
      · refine Or.inr ⟨fun hmem => ?_, hkept.trans (hothers g hg hname)⟩
        rcases List.mem_cons.mp hmem with heq | hmem
        · exact hname (congrArg Prod.fst heq)
        · exact hnot hmem

/-- **A record comes back from its members**, in whatever order they are stored. -/
theorem IsLawful.storeMembers (h : schema.IsLawful) {members : List (String × Value)}
    (hmembers : ∀ m, m ∈ members ↔ m ∈ schema.membersOf r) (before : R) :
    schema.storeMembers members before = .ok r := by
  obtain ⟨after, hstore, hfetch⟩ := h.store_some (fun m hm => Or.inr ((hmembers m).mp hm)) before
  have hsame : after = r := h.ext after r fun f hf => by
    rcases hfetch f hf with hsame | ⟨hnot, -⟩
    · exact hsame
    · exact absurd ((hmembers _).mpr (List.mem_map.mpr ⟨f, hf, rfl⟩)) hnot
  rw [hstore, hsame]

theorem nodup_membersOf (h : schema.IsLawful) : ((schema.membersOf r).map (·.1)).Nodup := by
  rw [membersOf, List.map_map]
  exact h.nodup

/-- A record comes back from the value that it is written as, and from that value with its members
sorted. -/
theorem ofValue_written (h : schema.IsLawful) :
    schema.ofValue (schema.toValue r) = .ok r ∧
      schema.ofValue (.object (gathered (schema.membersOf r))) = .ok r :=
  ⟨h.storeMembers (fun _ => Iff.rfl) schema.default,
    h.storeMembers (fun _ => (gathered_perm (nodup_membersOf h)).mem_iff) schema.default⟩

/-! ### From text -/

variable {f : Field R} {m : Member} {ms : List Member} {chars blanks last : List Char} {v : Value}

/-- A field reads the value of a member and stores it. -/
theorem readField_yields (hblanks : AllBlank blanks) (hreads : f.Reads chars v) :
    Yields (readField f r) (blanks ++ chars) (f.store v r).toOption := by
  intro rest hrest
  have hskip : skipBlanks (encoded (blanks ++ chars) ++ rest) =
      skipBlanks (encoded chars ++ rest) := by
    rw [Text.encoded_append, List.append_assoc, skipBlanks_append hblanks]
  unfold readField
  rw [hskip]
  unfold Field.Reads at hreads
  cases hf : f.structured with
  | true =>
    rw [hf, if_pos rfl] at hreads
    simp only [readValue_skipBlanks, hreads rest hrest, bind, Except.bind]
    cases f.store v r <;> rfl
  | false =>
    rw [hf, if_neg Bool.false_ne_true] at hreads
    obtain ⟨b, tail, hbytes, hb, hread⟩ := readScalar_denoted hreads hrest
    rw [hbytes, List.cons_append, skipBlanks_cons hb.noBlank]
    simp only [if_neg hb.noList, if_neg hb.noObject, hread, bind, Except.bind]
    cases f.store v r <;> rfl

/-- Characters that are no value are refused by a field that takes any value. -/
theorem readField_refused (hblanks : AllBlank blanks) (hf : f.structured = true)
    (h : Yields (readValue (depthLimit - 1)) chars none) :
    Yields (readField f r) (blanks ++ chars) none := by
  intro rest hrest
  have hread := h rest hrest
  rw [← readValue_append hblanks, ← readValue_skipBlanks] at hread
  rw [readField, hf, Text.encoded_append, List.append_assoc]
  exact toOption_bind hread _

/-- Members are put together with what is made of them. -/
theorem exists_paired {α β : Type} {p : α → β → Prop} {as : List α} (h : ∀ a ∈ as, ∃ b, p a b) :
    ∃ pairs : List (α × β), pairs.map (·.1) = as ∧ ∀ q ∈ pairs, p q.1 q.2 := by
  induction as with
  | nil => exact ⟨[], rfl, by simp⟩
  | cons a as ih =>
    obtain ⟨b, hb⟩ := h a List.mem_cons_self
    obtain ⟨pairs, hpairs, hall⟩ := ih fun a' ha' => h a' (List.mem_cons_of_mem _ ha')
    exact ⟨(a, b) :: pairs, congrArg (a :: ·) hpairs, List.forall_mem_cons.mpr ⟨hb, hall⟩⟩

/-- A member is read as a value by the field of its key, or it is passed over without one. -/
def Reads (schema : Schema R) (m : Member) (v : Value) : Prop :=
  match schema.field? m.name with
  | some f => f.Reads m.value v
  | none => IsValue m.value

theorem reads_known (hf : schema.field? m.name = some f) (h : f.Reads m.value v) :
    schema.Reads m v := by
  unfold Reads
  rwa [hf]

theorem reads_unknown (hf : schema.field? m.name = none) (h : IsValue m.value) :
    schema.Reads m v := by
  unfold Reads
  rwa [hf]

/-- Members as a record takes them, with their values: the known keys stand once. -/
structure Takes (schema : Schema R) (ms : List (Member × Value)) : Prop where
  written : ∀ m ∈ ms, m.1.IsWritten
  reads : ∀ m ∈ ms, schema.Reads m.1 m.2
  once : ((ms.map (·.1.name)).filter fun key => (schema.field? key).isSome).Nodup

/-- A member with an unknown key is passed over. -/
theorem adds_unknown (hm : m.IsBlank) (hf : schema.field? m.name = none) (hv : IsValue m.value)
    (soFar : Partly R) : Adds schema.readMember soFar m (some soFar) := by
  intro rest hrest
  have hskip : skipValue (encoded m.behindColon ++ (encoded m.value ++ rest)) = .ok rest := by
    rw [← List.append_assoc, ← Text.encoded_append]
    exact hv.skipValue hm.behindColon hrest
  rw [readMember, hf]
  simp only [readColon_tail hm, hskip, bind, Except.bind]
  rfl

/-- A member with a known key that has not been met has the outcome of its field. -/
theorem adds_known (hm : m.IsBlank) (hf : schema.field? m.name = some f) {seen : List String}
    (hseen : m.name ∉ seen) {stored : Option R}
    (h : Yields (readField f r) (m.behindColon ++ m.value) stored) :
    Adds schema.readMember ⟨r, seen⟩ m (stored.map (⟨·, m.name :: seen⟩)) := by
  intro rest hrest
  have hunseen : seen.contains m.name = false := by simpa using hseen
  have hread := h rest hrest
  rw [Text.encoded_append, List.append_assoc] at hread
  rw [readMember, hf]
  dsimp only
  rw [hunseen, if_neg Bool.false_ne_true, readColon_tail hm]
  refine (toOption_bind hread _).trans ?_
  cases stored <;> rfl

/-- A key that has been met is refused. -/
theorem adds_again (hf : schema.field? m.name = some f) {seen : List String}
    (hseen : m.name ∈ seen) : Adds schema.readMember ⟨r, seen⟩ m none := by
  intro rest _
  have hmet : seen.contains m.name = true := by simpa using hseen
  rw [readMember, hf]
  simp only [hmet, if_true]
  rfl

/-- Storing the first of some members, and then the others. -/
theorem storeMembers_cons (schema : Schema R) (key : String) (v : Value)
    (members : List (String × Value)) (r : R) :
    schema.storeMembers ((key, v) :: members) r = (match schema.field? key with
      | some f => f.store v r
      | none => .ok r) >>= schema.storeMembers members := by
  rw [storeMembers, List.foldlM_cons]
  rfl

theorem Takes.of_cons {m : Member × Value} {ms : List (Member × Value)}
    (h : schema.Takes (m :: ms)) : schema.Takes ms where
  written m' hm' := h.written m' (List.mem_cons_of_mem _ hm')
  reads m' hm' := h.reads m' (List.mem_cons_of_mem _ hm')
  once := h.once.sublist (((List.sublist_cons_self _ _).map _).filter _)

/-- A known key does not come again. -/
theorem Takes.fresh {m : Member × Value} {ms : List (Member × Value)} (h : schema.Takes (m :: ms))
    (hknown : (schema.field? m.1.name).isSome = true) : m.1.name ∉ ms.map (·.1.name) := by
  have honce := h.once
  rw [List.map_cons, List.filter_cons_of_pos (by simpa using hknown), List.nodup_cons] at honce
  exact fun hmem => honce.1 (List.mem_filter.mpr ⟨hmem, hknown⟩)

theorem addsAll_store {ms : List (Member × Value)} (hms : schema.Takes ms) {seen : List String}
    (hfresh : ∀ m ∈ ms, (schema.field? m.1.name).isSome = true → m.1.name ∉ seen) :
    ∃ result, AddsAll schema.readMember ⟨r, seen⟩ (ms.map (·.1)) result ∧
      result.map (·.record) =
        (schema.storeMembers (ms.map fun m => (m.1.name, m.2)) r).toOption := by
  induction ms generalizing r seen with
  | nil => exact ⟨_, .nil _, rfl⟩
  | cons m ms ih =>
    have hblank := (hms.written m List.mem_cons_self).toIsBlank
    have hreads := hms.reads m List.mem_cons_self
    unfold Reads at hreads
    rw [List.map_cons, List.map_cons, storeMembers_cons]
    cases hf : schema.field? m.1.name with
    | none =>
      rw [hf] at hreads
      obtain ⟨result, hall, hresult⟩ := ih (r := r) hms.of_cons
        fun m hm => hfresh m (List.mem_cons_of_mem _ hm)
      exact ⟨result, .cons (adds_unknown hblank hf hreads _) hall, hresult⟩
    | some f =>
      rw [hf] at hreads
      have hknown : (schema.field? m.1.name).isSome = true := by rw [hf]; rfl
      have hadds := adds_known hblank hf (hfresh m List.mem_cons_self hknown)
        (readField_yields (r := r) hblank.behindColon hreads)
      dsimp only
      cases hstore : f.store m.2 r with
      | error e =>
        rw [hstore] at hadds
        exact ⟨none, .refused hadds, rfl⟩
      | ok r' =>
        rw [hstore] at hadds
        have hfresh' : ∀ m' ∈ ms, (schema.field? m'.1.name).isSome = true →
            m'.1.name ∉ m.1.name :: seen := by
          intro m' hm' hknown' hmem
          rcases List.mem_cons.mp hmem with heq | hmem
          · exact hms.fresh hknown (heq ▸ List.mem_map_of_mem hm')
          · exact hfresh m' (List.mem_cons_of_mem _ hm') hknown' hmem
        obtain ⟨result, hall, hresult⟩ := ih (r := r') hms.of_cons hfresh'
        exact ⟨result, .cons hadds hall, hresult⟩

/-- The outcome of a record that is written as an object, with blanks before it. -/
theorem readText_yields (hblanks : AllBlank blanks) (hlast : AllBlank last)
    (hms : ∀ m ∈ ms, m.IsWritten) {result : Option (Partly R)}
    (h : AddsAll schema.readMember ⟨schema.default, []⟩ ms result) :
    Yields schema.readText (blanks ++ Container.object.chars ms last) (result.map (·.record)) := by
  intro rest _
  have hread := readMembers_object hlast hms h rest rfl
  rw [Text.encoded_append, List.append_assoc, encoded_object, readText, skipBlanks_append hblanks,
    skipBlanks_cons rfl]
  dsimp only
  rw [if_neg (by decide), if_pos rfl]
  refine (toOption_bind hread _).trans ?_
  cases result <;> rfl

/-- **A record that is written as an object is read** as what its members store in the defaults,
and it is refused if one of them is. -/
theorem readText_stored (hblanks : AllBlank blanks) (hlast : AllBlank last)
    {ms : List (Member × Value)} (hms : schema.Takes ms) :
    Yields schema.readText (blanks ++ Container.object.chars (ms.map (·.1)) last)
      (schema.storeMembers (ms.map fun m => (m.1.name, m.2)) schema.default).toOption := by
  obtain ⟨result, hall, hresult⟩ := addsAll_store (r := schema.default) hms
    fun _ _ _ => List.not_mem_nil
  have hwritten : ∀ m ∈ ms.map (·.1), m.IsWritten := by
    intro m hm
    obtain ⟨m', hm', rfl⟩ := List.mem_map.mp hm
    exact hms.written m' hm'
  rw [← hresult]
  exact readText_yields hblanks hlast hwritten hall

/-- A record is refused if the value of one of its fields is, whatever that field is stored in. -/
theorem readText_refused (hblanks : AllBlank blanks) (hlast : AllBlank last)
    (hms : ∀ m ∈ ms, m.IsWritten) {key : String} (hf : schema.field? key = some f)
    (hothers : ∀ m ∈ ms, m.name ≠ key → ∃ v, schema.Reads m v)
    (hrefused : ∀ m ∈ ms, m.name = key →
      ∀ r, Yields (readField f r) (m.behindColon ++ m.value) none)
    (hmem : ∃ m ∈ ms, m.name = key) :
    Yields schema.readText (blanks ++ Container.object.chars ms last) none := by
  have hnone : ∀ m ∈ ms, m.name = key → ∀ soFar : Partly R,
      Adds schema.readMember soFar m none := by
    intro m hm hkey soFar
    have hf' : schema.field? m.name = some f := by rw [hkey, hf]
    by_cases hseen : m.name ∈ soFar.seen
    · exact adds_again hf' hseen
    · exact adds_known (hms m hm).toIsBlank hf' hseen (hrefused m hm hkey soFar.record)
  have hall : ∀ m ∈ ms, ∀ soFar : Partly R, ∃ result, Adds schema.readMember soFar m result := by
    intro m hm soFar
    by_cases hkey : m.name = key
    · exact ⟨none, hnone m hm hkey soFar⟩
    obtain ⟨v, hreads⟩ := hothers m hm hkey
    have hblank := (hms m hm).toIsBlank
    unfold Reads at hreads
    cases hf' : schema.field? m.name with
    | none =>
      rw [hf'] at hreads
      exact ⟨_, adds_unknown hblank hf' hreads soFar⟩
    | some g =>
      rw [hf'] at hreads
      by_cases hseen : m.name ∈ soFar.seen
      · exact ⟨none, adds_again hf' hseen⟩
      · exact ⟨_, adds_known hblank hf' hseen (readField_yields hblank.behindColon hreads)⟩
  obtain ⟨m, hm, hkey⟩ := hmem
  exact readText_yields hblanks hlast hms (addsAll_refused hall hm (hnone m hm hkey) _)

/-! ### Whole records -/

variable {l : Layout}

/-- The members of a record with the characters of their values. -/
def written (schema : Schema R) (r : R) : List (String × List Char) :=
  schema.fields.map fun f => (f.name, scalarChars (f.fetch r))

theorem compactChars_written (h : schema.IsLawful) (r : R) :
    (schema.toValue r).compactChars = Layout.compact.object (schema.written r) := by
  rw [toValue, Value.compactChars_object, List.map_map, written]
  refine congrArg _ (List.map_congr_left fun f hf => ?_)
  rw [Function.comp_apply, ((h.lens f hf).scalar r).compactChars]

theorem prettyChars_written (h : schema.IsLawful) (hne : schema.fields ≠ []) (r : R) :
    (schema.toValue r).prettyChars 0 = (Layout.pretty 0).object (schema.written r) := by
  rw [toValue, Value.prettyChars_object 0 (by simpa using hne), List.map_map, written]
  refine congrArg _ (List.map_congr_left fun f hf => ?_)
  rw [Function.comp_apply, ((h.lens f hf).scalar r).prettyChars]

/-- A record is read back from either layout. -/
theorem restores_written (h : schema.IsLawful) (hl : l.IsBlank) (r : R) :
    Restores schema.readText (l.object (schema.written r)) r := by
  let ms : List (Member × Value) := schema.fields.map fun f =>
    (l.member (f.name, scalarChars (f.fetch r)), f.fetch r)
  have htakes : schema.Takes ms := by
    refine ⟨fun m hm => ?_, fun m hm => ?_, ?_⟩
    · obtain ⟨f, -, rfl⟩ := List.mem_map.mp hm
      exact hl.isWritten _
    · obtain ⟨f, hf, rfl⟩ := List.mem_map.mp hm
      exact reads_known (field?_of_mem h.nodup hf) (f.reads_scalar ((h.lens f hf).scalar r))
    · rw [List.map_map]
      exact h.nodup.filter _
  have hback := readText_stored allBlank_nil hl.last htakes
  have hstore : schema.storeMembers (ms.map fun m => (m.1.name, m.2)) schema.default = .ok r := by
    rw [List.map_map]
    exact h.storeMembers (fun _ => Iff.rfl) _
  rw [hstore, List.nil_append, List.map_map] at hback
  rw [Layout.object, written, List.map_map]
  exact hback.restores

/-- Read as a value, it comes back with its members sorted. -/
theorem restores_value (h : schema.IsLawful) (depth : Nat) (r : R) :
    Restores (readValue (depth + 1)) (schema.toValue r).compactChars
      (.object (gathered (schema.membersOf r))) := by
  have hmembers : ∀ m ∈ schema.fields.map fun f => (f.name, scalarChars (f.fetch r), f.fetch r),
      Restores (readValue depth) m.2.1 m.2.2 := by
    intro m hm
    obtain ⟨f, hf, rfl⟩ := List.mem_map.mp hm
    exact .scalar ((h.lens f hf).scalar r) depth
  have hback := Restores.object Layout.isBlank_compact hmembers
  rw [compactChars_written h]
  rwa [List.map_map, List.map_map] at hback

/-- Every record comes back: from its text in either layout, and from its text read as a value. -/
structure RoundTrips (schema : Schema R) : Prop where
  compact : ∀ r, schema.ofText (schema.toValue r).compact.toUTF8.toList = .ok r
  pretty : ∀ r, schema.ofText (schema.toValue r).pretty.toUTF8.toList = .ok r
  value : ∀ r, ∃ v, readDocument (schema.toValue r).compact.toUTF8.toList = .ok v ∧
    schema.ofValue v = .ok r

/-- **Records come back.** -/
theorem IsLawful.roundTrips (h : schema.IsLawful) (hne : schema.fields ≠ []) :
    schema.RoundTrips where
  compact r := by
    rw [Value.compact, Text.toList_toUTF8, String.toList_ofList, compactChars_written h]
    exact readWhole_back (restores_written h Layout.isBlank_compact r)
  pretty r := by
    rw [Value.pretty, Text.toList_toUTF8, String.toList_ofList, prettyChars_written h hne]
    exact readWhole_back (restores_written h (Layout.isBlank_pretty 0) r)
  value r := by
    rw [Value.compact, Text.toList_toUTF8, String.toList_ofList]
    exact ⟨_, readWhole_back (restores_value h 126 r), (ofValue_written h).2⟩

end Schema

end FileReceiver.Json
