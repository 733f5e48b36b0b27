/-
# The layers of the settings

What a receiver is told comes from three places: the options, the file and
the defaults, and each field has the value of the first of them that names it
(`Arguments.layered`). A file gives some of the fields in any order, with any
blanks and spellings, and may have members that nobody knows
(`Settings.Given.Writes`); it is read as what it gives over the defaults
(`Settings.Given.Writes.ofText`), since the written form of settings is lawful. The
PIN is looked at after the last layer and is the only thing that can be wrong.

A file that is named has to be read, while at the standard place whatever
cannot be read counts as no file.

Key definitions: `Settings.Given`, `Settings.Given.Writes`,
`Arguments.layered`, `Arguments.resolved`.
Key theorems: `Settings.Given.Writes.ofText`, `Arguments.settings_layered`.
-/
import FileReceiver.CommandLine.Program
import FileReceiver.Proofs.Saving
import Mathlib.Data.List.Forall2

namespace FileReceiver

open Json

namespace Settings

/-! ### What a file gives -/

/-- What a file of settings gives: each field, or nothing for it. -/
structure Given where
  port : Option UInt16 := none
  broadcastPort : Option UInt16 := none
  broadcastInterval : Option UInt64 := none
  pin : Option String := none
  outputFolder : Option Path := none
  certificate : Option Path := none
  key : Option Path := none
  nickname : Option String := none
  deviceKind : Option String := none
  deviceModel : Option String := none
  maxBody : Option UInt64 := none

namespace Given

variable (g : Given)

/-- What is given over the defaults. -/
def settings : Settings where
  port := g.port.getD 56789
  broadcastPort := g.broadcastPort.getD 56789
  broadcastInterval := g.broadcastInterval.getD 3
  pin := g.pin.getD "123456"
  outputFolder := g.outputFolder.getD ⟨"received_files"⟩
  certificate := g.certificate.getD ⟨"cert.pem"⟩
  key := g.key.getD ⟨"key.pem"⟩
  nickname := g.nickname.getD "LanSend Rust Receiver"
  deviceKind := g.deviceKind.getD "desktop"
  deviceModel := g.deviceModel.getD "SimulatedPC/Rust"
  maxBody := g.maxBody.getD 33554432

/-- The keys of all fields, with the values that are given. -/
def entries : List (String × Option Value) :=
  [("port", g.port.map Form.uint16.encode),
    ("broadcast_port", g.broadcastPort.map Form.uint16.encode),
    ("broadcast_interval_secs", g.broadcastInterval.map Form.uint64.encode),
    ("pin", g.pin.map Form.text.encode),
    ("output_dir", g.outputFolder.map pathForm.encode),
    ("cert_path", g.certificate.map pathForm.encode),
    ("key_path", g.key.map pathForm.encode),
    ("alias", g.nickname.map Form.text.encode),
    ("device_type", g.deviceKind.map Form.text.encode),
    ("device_model", g.deviceModel.map Form.text.encode),
    ("max_body_bytes", g.maxBody.map Form.byteCount.encode)]

/-- A file writes what is given: each field that is given once, in characters that denote its value,
no other field, and any values under unknown keys. -/
structure Writes (g : Given) (text : List Char) (ms : List Member)
    (before last behind : List Char) : Prop where
  chars : text = before ++ Container.object.chars ms last ++ behind
  blank : AllBlank before ∧ AllBlank last ∧ AllBlank behind
  written : ∀ m ∈ ms, m.IsWritten
  once : ((ms.map (·.name)).filter fun key => (schema.field? key).isSome).Nodup
  known : ∀ m ∈ ms, (schema.field? m.name).isSome = true →
    ∃ v, (m.name, some v) ∈ g.entries ∧ Denotes m.value v
  given : ∀ key v, (key, some v) ∈ g.entries → ∃ m ∈ ms, m.name = key
  unknown : ∀ m ∈ ms, schema.field? m.name = none → IsValue m.value

/-- An entry is for a field, whose value is what is given over the default. -/
structure IsFor (e : String × Option Value) (f : Json.Field Settings) : Prop where
  name : f.name = e.1
  fetch : f.fetch g.settings = e.2.getD (f.fetch {})

variable {g}

theorem isFor_field {α : Type} {form : Form α} {name : String} {get : Settings → α}
    {set : α → Settings → Settings} {a : Option α} (h : get g.settings = a.getD (get {})) :
    g.IsFor (name, a.map form.encode) (form.field name get set) := by
  refine ⟨rfl, ?_⟩
  change form.encode (get g.settings) = (a.map form.encode).getD (form.encode (get {}))
  rw [h]
  cases a <;> rfl

/-- The entries are for the fields, one after the other. -/
theorem entries_for : List.Forall₂ g.IsFor g.entries schema.fields := by
  unfold entries schema
  repeat' first | exact .nil | refine .cons (isFor_field rfl) ?_

theorem exists_of_forall₂ {α β : Type} {p : α → β → Prop} {as : List α} {bs : List β}
    (h : List.Forall₂ p as bs) : (∀ a ∈ as, ∃ b ∈ bs, p a b) ∧ ∀ b ∈ bs, ∃ a ∈ as, p a b := by
  induction h with
  | nil => simp
  | cons hab _ ih =>
    obtain ⟨hleft, hright⟩ := ih
    simp only [List.forall_mem_cons]
    exact ⟨⟨⟨_, List.mem_cons_self, hab⟩, fun a ha =>
        (hleft a ha).imp fun b hb => ⟨List.mem_cons_of_mem _ hb.1, hb.2⟩⟩,
      ⟨_, List.mem_cons_self, hab⟩, fun b hb =>
        (hright b hb).imp fun a ha => ⟨List.mem_cons_of_mem _ ha.1, ha.2⟩⟩

/-- A value that is given is the value of the field. -/
theorem fetch_of_entry {f : Json.Field Settings} (hf : f ∈ schema.fields) {v : Value}
    (hv : (f.name, some v) ∈ g.entries) : f.fetch g.settings = v := by
  obtain ⟨f', hf', hfor⟩ := (exists_of_forall₂ entries_for).1 _ hv
  have hname : f'.name = f.name := hfor.name
  have hsame : schema.field? f.name = some f' := by
    rw [← hname]
    exact Schema.field?_of_mem isLawful.nodup hf'
  obtain rfl : f = f' :=
    Option.some.inj ((Schema.field?_of_mem isLawful.nodup hf).symm.trans hsame)
  exact hfor.fetch

variable {text before last behind : List Char} {ms : List Member}

/-- What is stored of a file in the defaults is what the file gives, if each field is stored or kept,
and kept only if the file has no member for it. -/
theorem Writes.settings_of_stored {pairs : List (Member × Value)}
    (h : g.Writes text (pairs.map (·.1)) before last behind)
    (hpairs : ∀ q ∈ pairs, schema.field? q.1.name = none ∨ (q.1.name, some q.2) ∈ g.entries)
    {after : Settings} (hfetch : ∀ f ∈ schema.fields, f.fetch after = f.fetch g.settings ∨
      (f.name, f.fetch g.settings) ∉ (pairs.map fun q => (q.1.name, q.2)) ∧
        f.fetch after = f.fetch schema.default) : after = g.settings := by
  refine isLawful.ext after g.settings fun f hf => ?_
  rcases hfetch f hf with hsame | ⟨hnot, hkept⟩
  · exact hsame
  obtain ⟨e, he, hfor⟩ := (exists_of_forall₂ entries_for).2 f hf
  rcases hvalue : e.2 with _ | v
  · rw [hkept, hfor.fetch, hvalue]
    rfl
  -- a field that is given is among what is stored
  have hentry : (f.name, some v) ∈ g.entries := by
    rw [hfor.name, ← hvalue]
    exact he
  obtain ⟨m, hm, hname⟩ := h.given _ _ hentry
  obtain ⟨q, hq, rfl⟩ := List.mem_map.mp hm
  have hknown : (f.name, some q.2) ∈ g.entries := by
    rw [← hname]
    refine (hpairs q hq).resolve_left ?_
    rw [hname, Schema.field?_of_mem isLawful.nodup hf]
    exact Option.some_ne_none f
  refine absurd (List.mem_map.mpr ⟨q, hq, ?_⟩) hnot
  rw [hname, fetch_of_entry hf hknown]

/-- **A file is read as what it gives**, over the defaults. -/
theorem Writes.ofText (h : g.Writes text ms before last behind) :
    schema.ofText (Text.encoded text) = .ok g.settings := by
  obtain ⟨hbefore, hlast, hbehind⟩ := h.blank
  have hchoose : ∀ m ∈ ms, ∃ v, schema.Reads m v ∧
      (schema.field? m.name = none ∨ (m.name, some v) ∈ g.entries) := by
    intro m hm
    cases hf : schema.field? m.name with
    | none => exact ⟨.null, Schema.reads_unknown hf (h.unknown m hm hf), Or.inl rfl⟩
    | some f =>
      obtain ⟨v, hv, hdenotes⟩ := h.known m hm (by rw [hf]; rfl)
      exact ⟨v, Schema.reads_known hf (f.reads_denoted hdenotes), Or.inr hv⟩
  obtain ⟨pairs, rfl, hall⟩ := Schema.exists_paired hchoose
  have htakes : schema.Takes pairs := by
    refine ⟨fun q hq => h.written _ (List.mem_map_of_mem hq), fun q hq => (hall q hq).1, ?_⟩
    have honce := h.once
    rwa [List.map_map] at honce
  have hmembers : ∀ m ∈ pairs.map fun q => (q.1.name, q.2),
      schema.field? m.1 = none ∨ m ∈ schema.membersOf g.settings := by
    intro m hm
    obtain ⟨q, hq, rfl⟩ := List.mem_map.mp hm
    refine (hall q hq).2.imp_right fun hentry => ?_
    obtain ⟨f, hf, hfor⟩ := (exists_of_forall₂ entries_for).1 _ hentry
    exact List.mem_map.mpr ⟨f, hf, Prod.ext hfor.name hfor.fetch⟩
  obtain ⟨after, hstore, hfetch⟩ := isLawful.store_some hmembers schema.default
  obtain rfl := h.settings_of_stored (fun q hq => (hall q hq).2) hfetch
  have hread := (Schema.readText_stored hbefore hlast htakes).readWhole hbehind
  rw [hstore] at hread
  rw [h.chars, Schema.ofText]
  exact toOption_eq_some hread

end Given
end Settings

/-! ### Over a file the options -/

namespace Arguments

open Settings (Given)

variable (a : Arguments) (g : Given) (environment : Environment)

/-- Each option that is given, else what the file gives, else the default; there is no option for
the kind and the model of the device. -/
def layered : Settings where
  port := (a.port.or g.port).getD 56789
  broadcastPort := (a.broadcastPort.or g.broadcastPort).getD 56789
  broadcastInterval := (a.broadcastInterval.or g.broadcastInterval).getD 3
  pin := (a.pin.or g.pin).getD "123456"
  outputFolder := (a.outputFolder.or g.outputFolder).getD ⟨"received_files"⟩
  certificate := (a.certificate.or g.certificate).getD ⟨"cert.pem"⟩
  key := (a.key.or g.key).getD ⟨"key.pem"⟩
  nickname := (a.nickname.or g.nickname).getD "LanSend Rust Receiver"
  deviceKind := g.deviceKind.getD "desktop"
  deviceModel := g.deviceModel.getD "SimulatedPC/Rust"
  maxBody := (a.maxBody.or g.maxBody).getD 33554432

/-- What comes of the layers: a random PIN takes the place of every other, and any other PIN must
not be empty. -/
def resolved (randomPin : String) : Except SettingsError Settings :=
  if a.randomPin then .ok { a.layered g with pin := randomPin }
  else if (a.layered g).pin = "" then .error .emptyPin
  else .ok (a.layered g)

variable {a g environment} {home : Option Path}

theorem getD_or {α : Type} (x y : Option α) (default : α) :
    x.getD (y.getD default) = (x.or y).getD default := by
  cases x <;> rfl

theorem overlay_settings (randomPin : String) : a.overlay randomPin g.settings =
    if a.randomPin then { a.layered g with pin := randomPin } else a.layered g := by
  unfold overlay layered Given.settings
  simp only [getD_or]
  split <;> rfl

/-- The settings over a ground that is given. -/
theorem settings_of_ground {randomPin : String} (hpin : randomPin ≠ "") {d : Disk}
    (h : (a.ground environment d home).1 = .ok g.settings) :
    (a.settings environment randomPin d home).1 = a.resolved g randomPin := by
  unfold settings
  rcases hground : a.ground environment d home with ⟨res, d'⟩
  rw [hground] at h
  obtain rfl : res = .ok g.settings := h
  dsimp only
  rw [overlay_settings, resolved]
  cases a.randomPin with
  | true => simp [hpin]
  | false =>
    simp only [Bool.false_eq_true, if_false]
    split <;> rfl

theorem ground_standard (hfile : a.settingsFile = none) (d : Disk) :
    (a.ground environment d home).1 = .ok (Settings.loadStandard environment d home).1 := by
  rw [ground, hfile]

/-- At the standard place what cannot be loaded counts as the defaults. -/
theorem loadStandard_at {p : Path} (hplace : Settings.standardPath? environment home = some p)
    (d : Disk) : (Settings.loadStandard environment d home).1 =
      match (Settings.load p d).1 with
      | .ok s => s
      | .error _ => {} := by
  rw [Settings.loadStandard, hplace]
  rcases hload : Settings.load p d with ⟨_ | _, _⟩ <;> simp only [hload]

/-- The defaults count where nothing can be loaded, be it that there is no standard place. -/
theorem loadStandard_default {d : Disk}
    (h : ∀ p, Settings.standardPath? environment home = some p →
      ∃ e, (Settings.load p d).1 = .error e) :
    (Settings.loadStandard environment d home).1 = {} := by
  cases hplace : Settings.standardPath? environment home with
  | none => rw [Settings.loadStandard, hplace]
  | some p =>
    obtain ⟨e, he⟩ := h p hplace
    rw [loadStandard_at hplace, he]

theorem pinOfNumber_ne (n : Nat) : Program.pinOfNumber n ≠ "" := by
  intro hempty
  have hchars := congrArg String.toList hempty
  simp [Program.pinOfNumber, Nat.toDigits_ne_nil] at hchars

/-- **Every field has its value from the first layer that names it**, and only the PIN can be wrong.
So it is with every file that gives settings, at the place that is named or at the standard one. A
file that is named and cannot be loaded is an error, the one that loading it is; at the standard
place it counts as none, and so it is for a user who has no such place. -/
theorem settings_layered (a : Arguments) (environment : Environment) (n : Nat) (d : Disk)
    (home : Option Path) :
    (∀ p (g : Given) (text : String) ms before last behind,
      a.settingsFile.or (Settings.standardPath? environment home) = some p →
      (d.readText p).1 = .ok text → g.Writes text.toList ms before last behind →
      (a.settings environment (Program.pinOfNumber n) d home).1 =
        a.resolved g (Program.pinOfNumber n)) ∧
    (∀ p e, a.settingsFile = some p → (Settings.load p d).1 = .error e →
      (a.settings environment (Program.pinOfNumber n) d home).1 = .error e) ∧
    (a.settingsFile = none →
      (∀ p, Settings.standardPath? environment home = some p →
        ∃ e, (Settings.load p d).1 = .error e) →
      (a.settings environment (Program.pinOfNumber n) d home).1 =
        a.resolved {} (Program.pinOfNumber n)) := by
  refine ⟨fun p g text ms before last behind hplace htext hwrites => ?_,
    fun p e hfile hload => ?_, fun hfile hload => ?_⟩
  · have hload : (Settings.load p d).1 = .ok g.settings := by
      refine Settings.load_of_readText htext ?_
      rw [Text.toList_toUTF8]
      exact hwrites.ofText
    refine settings_of_ground (pinOfNumber_ne n) ?_
    cases hfile : a.settingsFile with
    | some named =>
      rw [hfile] at hplace
      obtain rfl : named = p := Option.some.inj hplace
      rw [ground, hfile]
      exact hload
    | none =>
      rw [hfile] at hplace
      rw [ground_standard hfile, loadStandard_at hplace, hload]
  · rcases hp : Settings.load p d with ⟨res, d'⟩
    rw [hp] at hload
    obtain rfl : res = .error e := hload
    simp only [settings, ground, hfile, hp]
  · refine settings_of_ground (pinOfNumber_ne n) ?_
    rw [ground_standard hfile, loadStandard_default hload]
    rfl

/-- A file that gives a port, an empty PIN and something unknown, under an option for the port: the
PIN is wrong, but not with a random one. No file is an error if it is named and counts as none at
the standard place, with which it is as without such a place. -/
theorem partial_file_layered :
    let text := "\x7b\"port\":1,\"new\":[],\"pin\":\"\"\x7d"
    let d := Disk.put { entries := ∅ } ["c"] (.file Disk.commonMode text.toUTF8)
    let named : Arguments := { settingsFile := some ⟨"c"⟩, port := some 2 }
    let missing : Arguments := { settingsFile := some ⟨"x"⟩ }
    (d.readText ⟨"c"⟩).1 = .ok text ∧
      (named.settings [] (Program.pinOfNumber 7) d).1 = .error .emptyPin ∧
      (({ named with randomPin := true } : Arguments).settings [] (Program.pinOfNumber 7) d).1 =
        .ok { port := 2, pin := "000007" } ∧
      (∃ e, (Settings.load ⟨"x"⟩ d).1 = .error e ∧
        (missing.settings [] (Program.pinOfNumber 7) d).1 = .error e) ∧
      (∃ e, (Settings.load (Settings.standardPath []) d).1 = .error e) ∧
      (({} : Arguments).settings [] (Program.pinOfNumber 7) d).1 = .ok {} ∧
      (({} : Arguments).settings [] (Program.pinOfNumber 7) d none).1 = .ok {} := by
  intro text d named missing
  let g : Given := { port := some 1, pin := some "" }
  let ms : List Member := [("port", ['1']), ("new", ['[', ']']), ("pin", ['"', '"'])].map
    Layout.compact.member
  have hwrites : g.Writes text.toList ms [] [] [] := by
    refine ⟨by decide, ⟨allBlank_nil, allBlank_nil, allBlank_nil⟩, fun m hm => ?_, by decide,
      ?_, ?_, ?_⟩
    · obtain ⟨p, -, rfl⟩ := List.mem_map.mp hm
      exact Layout.isBlank_compact.isWritten p
    · simp only [ms, List.map_cons, List.map_nil, List.forall_mem_cons]
      have hport : Denotes ['1'] (Form.uint16.encode 1) := .natural (n := 1) (by decide)
      have hpin : Denotes ['"', '"'] (Form.text.encode "") := .string (spells_escaped "".toList)
      exact ⟨fun _ => ⟨_, .head _, hport⟩, fun hknown => absurd hknown (by decide),
        fun _ => ⟨_, .tail _ (.tail _ (.tail _ (.head _))), hpin⟩, by simp⟩
    · intro key v hentry
      have hkey : key = "port" ∨ key = "pin" := by
        simp [g, Given.entries] at hentry
        exact hentry.imp (·.1) (·.1)
      rcases hkey with rfl | rfl
      · exact ⟨_, .head _, rfl⟩
      · exact ⟨_, .tail _ (.tail _ (.head _)), rfl⟩
    · simp only [ms, List.map_cons, List.map_nil, List.forall_mem_cons]
      have hempty : IsValue (Container.list.chars [] []) :=
        .container .list allBlank_nil (by simp) (by simp) (by simp)
      exact ⟨fun hnone => absurd hnone (by decide), fun _ => hempty,
        fun hnone => absurd hnone (by decide), by simp⟩
  have htext : (d.readText ⟨"c"⟩).1 = .ok text := toOption_eq_some (by decide +kernel)
  have herror {p : Path} (h : (Settings.load p d).1.toOption.isNone = true) :
      ∃ e, (Settings.load p d).1 = .error e := by
    cases hload : (Settings.load p d).1 with
    | error e => exact ⟨e, rfl⟩
    | ok s =>
      rw [hload] at h
      cases h
  obtain ⟨e, he⟩ := herror (p := ⟨"x"⟩) (by decide +kernel)
  obtain ⟨e', he'⟩ := herror (p := Settings.standardPath []) (by decide +kernel)
  let home := some Settings.superuserHome
  have hstandard (p : Path) (hp : Settings.standardPath? [] home = some p) :
      ∃ e, (Settings.load p d).1 = .error e := by
    obtain rfl : Settings.standardPath [] = p := Option.some.inj hp
    exact ⟨e', he'⟩
  exact ⟨htext, (settings_layered named [] 7 d home).1 _ g text ms [] [] [] rfl htext hwrites,
    (settings_layered { named with randomPin := true } [] 7 d home).1 _ g text ms [] [] [] rfl htext
      hwrites,
    ⟨e, he, (settings_layered missing [] 7 d home).2.1 _ e rfl he⟩, ⟨e', he'⟩,
    (settings_layered {} [] 7 d home).2.2 rfl hstandard,
    (settings_layered {} [] 7 d none).2.2 rfl nofun⟩

end Arguments
end FileReceiver
