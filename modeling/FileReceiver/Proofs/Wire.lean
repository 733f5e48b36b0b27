/-
# The records of the protocol

A form is faithful if what it writes is read as what it was. The fields of
devices, offers and settings are of such forms, each with a part of the
record to itself; so all three come back from their texts, in the bodies of
requests as well.

Key definitions: `Json.Form.IsFaithful`.
Key theorems: `Device.roundTrips`, `FileOffer.roundTrips`,
`Settings.roundTrips`, `Http.readConnect_back`, `Http.readSend_back`.
-/
import FileReceiver.Discovery
import FileReceiver.Http.Handlers
import FileReceiver.Proofs.RoundTrip
import FileReceiver.Settings.Basic

namespace FileReceiver
namespace Json

/-! ### Forms -/

namespace Form

variable {α : Type} {form : Form α}

/-- What is written of a form is a scalar, and is read as what it was. -/
structure IsFaithful (form : Form α) : Prop where
  decode : ∀ a, form.decode (form.encode a) = .ok a
  scalar : ∀ a, (form.encode a).IsScalar

theorem faithful_text : text.IsFaithful := ⟨fun _ => rfl, fun _ => trivial⟩

theorem boundedNatural_back (wanted : String) {n bound : Nat} (h : n < bound) :
    boundedNatural wanted bound (.natural n) = .ok n := by
  rw [Value.natural, boundedNatural, if_pos ⟨Int.natCast_nonneg n, Int.ofNat_lt.mpr h⟩,
    Int.toNat_natCast]

theorem scalar_natural {n : Nat} (h : n < UInt64.size) : (Value.natural n).IsScalar :=
  ⟨Int.natCast_nonneg n, Int.ofNat_lt.mpr h⟩

theorem faithful_uint16 : uint16.IsFaithful where
  decode n := by
    unfold uint16
    dsimp only
    rw [boundedNatural_back "u16" n.toNat_lt_size, Except.map, Nat.toUInt16_eq, n.ofNat_toNat]
  scalar n := scalar_natural (Nat.lt_trans n.toNat_lt_size (by decide))

theorem faithful_uint64Named (wanted : String) : (uint64Named wanted).IsFaithful where
  decode n := by
    unfold uint64Named
    dsimp only
    rw [boundedNatural_back wanted n.toNat_lt_size, Except.map, Nat.toUInt64_eq, n.ofNat_toNat]
  scalar n := scalar_natural n.toNat_lt_size

theorem IsFaithful.optional (h : form.IsFaithful) (hnull : ∀ a, form.encode a ≠ .null) :
    form.optional.IsFaithful where
  decode
    | none => rfl
    | some a => by
      have hback : (form.decode (form.encode a)).map some = .ok (some a) := by rw [h.decode]; rfl
      rw [← hback]
      unfold Form.optional
      dsimp only
      split
      · rename_i heq
        exact absurd heq (hnull a)
      · rfl
  scalar
    | none => trivial
    | some a => h.scalar a

end Form

/-! ### Fields -/

section Fields

variable {α R : Type} {form : Form α} {name : String} {get : R → α} {set : α → R → R}

/-- A field of a faithful form that has a part of the record to itself. -/
theorem Form.IsFaithful.field (h : form.IsFaithful) {fields : List (Field R)}
    (hget : ∀ a r, get (set a r) = a)
    (hothers : ∀ g ∈ fields, g.name ≠ name → ∀ a r, g.fetch (set a r) = g.fetch r) :
    (form.field name get set).IsLens fields := by
  refine ⟨fun r => h.scalar (get r), fun r before =>
    ⟨set (get r) before, ?_, ?_, fun g hg hne => hothers g hg hne _ _⟩⟩
  · change (form.decode (form.encode (get r))).map (set · before) = _
    rw [h.decode]
    rfl
  · exact congrArg form.encode (hget _ _)

theorem Form.IsFaithful.get_eq (h : form.IsFaithful) {r r' : R}
    (heq : (form.field name get set).fetch r = (form.field name get set).fetch r') :
    get r = get r' := by
  have hdecode : form.decode (form.encode (get r)) = form.decode (form.encode (get r')) :=
    congrArg form.decode heq
  rw [h.decode, h.decode] at hdecode
  exact Except.ok.inj hdecode

end Fields

end Json

open Json

/-! ### Devices -/

namespace Device

theorem isLawful : schema.IsLawful where
  nodup := by decide
  lens := by
    simp only [schema, List.forall_mem_cons]
    refine ⟨?_, ?_, ?_, ?_, ?_, ?_, ?_, ?_, by simp⟩
    -- each setter changes the field of its own key
    all_goals
      refine Form.IsFaithful.field ?_ (fun _ _ => rfl) (by simp [Form.field])
      first
        | exact Form.faithful_text
        | exact Form.faithful_uint16
  ext r r' h := by
    simp only [schema, List.forall_mem_cons] at h
    obtain ⟨hid, hnickname, hhostname, hsystem, haddress, hport, hkind, hmodel, -⟩ := h
    have htext := Form.faithful_text
    cases r
    cases r'
    simp only [mk.injEq]
    exact ⟨htext.get_eq hid, htext.get_eq hnickname, htext.get_eq hhostname, htext.get_eq hsystem,
      htext.get_eq haddress, Form.faithful_uint16.get_eq hport, htext.get_eq hkind,
      htext.get_eq hmodel⟩

/-- **Devices come back.** -/
theorem roundTrips : schema.RoundTrips := isLawful.roundTrips (by simp [schema])

end Device

/-- An announcement tells who announces itself. -/
theorem Discovery.datagram_back {d : Device} {text : String} (h : datagram? d = some text) :
    Device.schema.ofText text.toUTF8.toList = .ok d := by
  unfold datagram? at h
  dsimp only at h
  split at h
  · obtain rfl := Option.some.inj h
    exact Device.roundTrips.compact d
  · cases h

/-! ### Offers -/

namespace FileOffer

theorem faithful_size : sizeForm.IsFaithful where
  decode n := by
    unfold sizeForm
    dsimp only
    rw [Value.natural, sizeOfValue, if_pos (Int.natCast_nonneg _), Int.toNat_natCast,
      Nat.toUInt64_eq, n.ofNat_toNat]
  scalar n := Form.scalar_natural n.toNat_lt_size

theorem faithful_optionalText : Form.text.optional.IsFaithful :=
  Form.faithful_text.optional fun _ => Value.noConfusion

theorem isLawful : schema.IsLawful where
  nodup := by decide
  lens := by
    simp only [schema, List.forall_mem_cons]
    refine ⟨?_, ?_, ?_, ?_, by simp⟩
    all_goals
      refine Form.IsFaithful.field ?_ (fun _ _ => rfl) (by simp [Form.field])
      first
        | exact faithful_optionalText
        | exact faithful_size
  ext r r' h := by
    simp only [schema, List.forall_mem_cons] at h
    obtain ⟨hname, hsize, hkind, hhash, -⟩ := h
    have htext := faithful_optionalText
    cases r
    cases r'
    simp only [mk.injEq]
    exact ⟨htext.get_eq hname, faithful_size.get_eq hsize, htext.get_eq hkind, htext.get_eq hhash⟩

/-- **Offers come back.** -/
theorem roundTrips : schema.RoundTrips := isLawful.roundTrips (by simp [schema])

end FileOffer

/-! ### Settings -/

namespace Settings

theorem faithful_path : pathForm.IsFaithful := ⟨fun _ => rfl, fun _ => trivial⟩

theorem isLawful : schema.IsLawful where
  nodup := by decide
  lens := by
    simp only [schema, List.forall_mem_cons]
    refine ⟨?_, ?_, ?_, ?_, ?_, ?_, ?_, ?_, ?_, ?_, ?_, by simp⟩
    all_goals
      refine Form.IsFaithful.field ?_ (fun _ _ => rfl) (by simp [Form.field])
      first
        | exact Form.faithful_text
        | exact faithful_path
        | exact Form.faithful_uint16
        | exact Form.faithful_uint64Named _
  ext r r' h := by
    simp only [schema, List.forall_mem_cons] at h
    obtain ⟨hport, hbroadcast, hinterval, hpin, hfolder, hcertificate, hkey, hnickname, hkind,
      hmodel, hbody, -⟩ := h
    have htext := Form.faithful_text
    cases r
    cases r'
    simp only [mk.injEq]
    exact ⟨Form.faithful_uint16.get_eq hport, Form.faithful_uint16.get_eq hbroadcast,
      (Form.faithful_uint64Named _).get_eq hinterval, htext.get_eq hpin,
      faithful_path.get_eq hfolder, faithful_path.get_eq hcertificate, faithful_path.get_eq hkey,
      htext.get_eq hnickname, htext.get_eq hkind, htext.get_eq hmodel,
      (Form.faithful_uint64Named _).get_eq hbody⟩

/-- **Settings come back.** -/
theorem roundTrips : schema.RoundTrips := isLawful.roundTrips (by simp [schema])

end Settings

/-! ### Bodies -/

namespace Http

/-- The body of a request to pair. -/
def connectBody (pin : String) (d : Device) : ByteArray :=
  (Value.object [("pin_code", .string pin),
    ("device_info", Device.schema.toValue d)]).compact.toUTF8

/-- The body of a request to send. -/
def sendBody (sessionId : String) (manifest : Manifest) : ByteArray :=
  (Value.object [("session_id", .string sessionId),
    ("files", .object (manifest.map fun f => (f.1, FileOffer.schema.toValue f.2)))]).compact.toUTF8

/-- A text and an object under two keys are read back as the two parts of a record. -/
theorem restores_parts {R : Type} (schema : Schema R) {key key' : String}
    {get : R → Option String} {set : Option String → R → R} {get' : R → Option Value}
    {set' : Option Value → R → R}
    (hfields : schema.fields =
      [Form.text.optional.field key get set, Form.anything.optional.field key' get' set'])
    (hne : key ≠ key') (s : String) {v : Value} {members : List (String × Value)}
    (hobject : Restores (readValue 126) v.compactChars (.object members)) :
    Restores schema.readText (Value.object [(key, .string s), (key', v)]).compactChars
      (set' (some (.object members)) (set (some s) schema.default)) := by
  let textField := Form.text.optional.field key get set
  let objectField := Form.anything.optional.field key' get' set'
  have hnodup : (schema.fields.map (·.name)).Nodup := by
    rw [hfields]
    simpa [Form.field] using hne
  have htext : schema.field? key = some textField :=
    Schema.field?_of_mem hnodup (f := textField) (by simp [hfields, textField])
  have hother : schema.field? key' = some objectField :=
    Schema.field?_of_mem hnodup (f := objectField) (by simp [hfields, objectField])
  let ms : List (Member × Value) :=
    [(Layout.compact.member (key, stringChars s), .string s),
      (Layout.compact.member (key', v.compactChars), .object members)]
  have hreads : objectField.Reads v.compactChars (.object members) :=
    Field.reads_structured rfl hobject
  have htakes : schema.Takes ms := by
    refine ⟨?_, ?_, ?_⟩
    · simp only [ms, List.forall_mem_cons]
      exact ⟨Layout.isBlank_compact.isWritten _, Layout.isBlank_compact.isWritten _, by simp⟩
    · simp only [ms, List.forall_mem_cons]
      exact ⟨Schema.reads_known htext (textField.reads_scalar (v := .string s) trivial),
        Schema.reads_known hother hreads, by simp⟩
    · refine List.Pairwise.filter _ ?_
      simpa [ms, Layout.member] using hne
  have hstore : schema.storeMembers (ms.map fun m => (m.1.name, m.2)) schema.default =
      .ok (set' (some (.object members)) (set (some s) schema.default)) := by
    change schema.storeMembers [(key, .string s), (key', .object members)] _ = _
    simp only [Schema.storeMembers, List.foldlM_cons, List.foldlM_nil, htext, hother]
    rfl
  have hback := Schema.readText_stored allBlank_nil allBlank_nil htakes
  rw [hstore] at hback
  rw [Value.compactChars_object]
  exact hback.restores

/-- A body is read back as a record if its value is. -/
theorem readBody_back {R : Type} {schema : Schema R} {v : Value} {r : R}
    (h : Restores schema.readText v.compactChars r) : readBody schema v.compact.toUTF8 = .ok r := by
  rw [readBody, Value.compact, Text.toList_toUTF8, String.toList_ofList, Schema.ofText,
    readWhole_back h]

theorem nonempty?_some {s : String} (h : s ≠ "") : nonempty? (some s) = some s := by
  rw [nonempty?, if_neg h]

theorem readConnect_ok {body : ByteArray} {pin : String} {v : Value} {d : Device} (hpin : pin ≠ "")
    (hbody : readBody ConnectBody.schema body = .ok ⟨some pin, some v⟩)
    (hdevice : Device.schema.ofValue v = .ok d) : readConnect body = .ok (pin, d) := by
  unfold readConnect
  rw [hbody]
  simp only [bind, Except.bind, nonempty?_some hpin, hdevice]

theorem readSend_ok {body : ByteArray} {sessionId : String} {members : List (String × Value)}
    {manifest : Manifest} (hsession : sessionId ≠ "")
    (hbody : readBody SendBody.schema body = .ok ⟨some sessionId, some (.object members)⟩)
    (hmanifest : FileOffer.manifestOfValue (.object members) = .ok manifest) :
    readSend body = .ok (sessionId, manifest) := by
  unfold readSend
  rw [hbody]
  simp only [bind, Except.bind, nonempty?_some hsession, hmanifest]

/-- **The identity in a request to pair comes back.** -/
theorem readConnect_back {pin : String} (hpin : pin ≠ "") (d : Device) :
    readConnect (connectBody pin d) = .ok (pin, d) := by
  have hlawful := Device.isLawful
  have hobject := Schema.restores_value hlawful 125 d
  have hne : "pin_code" ≠ "device_info" := by decide
  have hbody := readBody_back (restores_parts ConnectBody.schema rfl hne pin hobject)
  exact readConnect_ok hpin hbody (Schema.ofValue_written hlawful).2

/-- The value as which an offer is read. -/
def offerValue (f : String × FileOffer) : String × Value :=
  (f.1, .object (gathered (FileOffer.schema.membersOf f.2)))

/-- Offers come back from their values, in whatever order. -/
theorem manifestOfValue_back {members : List (String × Value)} {manifest : Manifest}
    (hperm : members.Perm (manifest.map offerValue)) :
    ∃ manifest', FileOffer.manifestOfValue (.object members) = .ok manifest' ∧
      manifest'.Perm manifest := by
  change ∃ manifest', (members.mapM fun m => do pure (m.1, ← FileOffer.schema.ofValue m.2)) =
    .ok manifest' ∧ _
  induction members generalizing manifest with
  | nil =>
    obtain rfl : manifest = [] := List.map_eq_nil_iff.mp (List.nil_perm.mp hperm)
    exact ⟨[], rfl, .refl _⟩
  | cons m members ih =>
    obtain ⟨f, hf, rfl⟩ := List.mem_map.mp (hperm.subset List.mem_cons_self)
    obtain ⟨front, back, rfl⟩ := List.append_of_mem hf
    have hmiddle : (front ++ f :: back).Perm (f :: (front ++ back)) := List.perm_middle
    have hrest : members.Perm ((front ++ back).map offerValue) :=
      (hperm.trans (hmiddle.map offerValue)).cons_inv
    obtain ⟨manifest', hread, hsame⟩ := ih hrest
    refine ⟨f :: manifest', ?_, (hsame.cons f).trans hmiddle.symm⟩
    rw [List.mapM_cons, hread, offerValue, (Schema.ofValue_written FileOffer.isLawful).2]
    rfl

/-- **The manifest in a request to send comes back**, if its ids differ, in some order. -/
theorem readSend_back {sessionId : String} (hsession : sessionId ≠ "") {manifest : Manifest}
    (hids : (manifest.map (·.1)).Nodup) :
    ∃ manifest', readSend (sendBody sessionId manifest) = .ok (sessionId, manifest') ∧
      manifest'.Perm manifest := by
  let offers := manifest.map fun f =>
    (f.1, (FileOffer.schema.toValue f.2).compactChars, (offerValue f).2)
  -- an offer stands two levels below the body, and its members three
  have hoffers : ∀ m ∈ offers, Restores (readValue 125) m.2.1 m.2.2 := by
    intro m hm
    obtain ⟨f, -, rfl⟩ := List.mem_map.mp hm
    exact Schema.restores_value FileOffer.isLawful 124 f.2
  have hvalues : offers.map (fun m => (m.1, m.2.2)) = manifest.map offerValue := by
    rw [List.map_map]
    rfl
  have hchars : Layout.compact.object (offers.map fun m => (m.1, m.2.1)) =
      (Value.object (manifest.map fun f => (f.1, FileOffer.schema.toValue f.2))).compactChars := by
    rw [Value.compactChars_object, List.map_map, List.map_map]
    rfl
  have hobject := Restores.object Layout.isBlank_compact hoffers
  rw [hvalues, hchars] at hobject
  have hne : "session_id" ≠ "files" := by decide
  have hbody := readBody_back (restores_parts SendBody.schema rfl hne sessionId hobject)
  have hnodup : ((manifest.map offerValue).map (·.1)).Nodup := by
    rw [List.map_map]
    exact hids
  obtain ⟨manifest', hmanifest, hperm⟩ := manifestOfValue_back (gathered_perm hnodup)
  exact ⟨manifest', readSend_ok hsession hbody hmanifest, hperm⟩

end Http

end FileReceiver
