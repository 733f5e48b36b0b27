/-
# Words before variables

What the words of a command line name is not read from its variable, so the
variables of such options (`Reading.decides`) can be left out of the
environment: the options are read in turn, with and without them, and the two
readings are the same but for the PIN (`Reading.SameButPin`). The PIN is the
exception, because a random PIN is asked for by a flag of its own: the PIN of
the variable is read beside it and then found to be one too many. That is the
only way in which a variable can change what the words decide
(`Arguments.words_prevail_iff`).

Key definitions: `Arguments.ofWords`, `Reading.decides`, `Arguments.undecided`,
`Arguments.outcome`, `Arguments.Clashes`, `Reading.SameButPin`.
Key theorems: `Reading.fold_sameButPin`, `Reading.fold_pin`,
`Arguments.parse_undecided`, `Arguments.words_prevail_iff`.
-/
import FileReceiver.CommandLine.Overlay

namespace FileReceiver

/-- A step that goes on from another one succeeds only after it. -/
theorem exists_of_bind_ok {ε α β : Type} {x : Except ε α} {f : α → Except ε β} {b : β}
    (h : x >>= f = .ok b) : ∃ a, x = .ok a ∧ f a = .ok b := by
  cases x with
  | error e => cases h
  | ok a => exact ⟨a, rfl, h⟩

/-- The arguments of a reading, unless a PIN stands beside a random PIN. -/
def Reading.finished (r : Reading) : Except UsageError Arguments :=
  if r.arguments.randomPin ∧ r.arguments.pin.isSome then .error .conflict else .ok r.arguments

/-- Whether the words have named what a variable is for: its option, or a random PIN in the place of
the PIN. -/
def Reading.decides (r : Reading) (name : String) : Bool :=
  r.given.any (·.variableName == name) ||
    (r.arguments.randomPin && name == Setting.pin.variableName)

namespace Arguments

/-- Reads the words of a command line. -/
def ofWords (words : List String) : Except UsageError Reading := do
  (← words.foldlM Reading.word {}).settle

/-- The environment without the variables for what the words name. -/
def undecided (words : List String) (environment : Environment) : Environment :=
  match ofWords words with
  | .ok r => environment.filter fun entry => !r.decides entry.1
  | .error _ => environment

/-- The arguments of a command line, and the settings that they ask for, for a user whose account
may have a home. -/
def outcome (words : List String) (environment : Environment) (randomPin : String) (d : Disk)
    (home : Option Path) : Except UsageError (Arguments × Except SettingsError Settings × Disk) :=
  (parse words environment).map fun a => (a, a.settings environment randomPin d home)

end Arguments

/-! ### Reading one option -/

namespace Setting

variable {o : Setting} {value : String} {a a' : Arguments}

/-- Different options have different variables. -/
theorem variableName_inj {o o' : Setting} (h : o.variableName = o'.variableName) : o = o' := by
  cases o <;> cases o' <;> first | rfl | exact absurd h (by decide)

/-- Reading an option sets no flag, and the PIN only if it is that option. -/
theorem read_keeps (h : o.read value a = .ok a') :
    a'.randomPin = a.randomPin ∧ a'.pin = if o = .pin then some value else a.pin := by
  cases o
  case pin | nickname =>
    cases h
    exact ⟨rfl, rfl⟩
  all_goals
    obtain ⟨x, -, hx⟩ := exists_of_bind_ok h
    cases hx
    exact ⟨rfl, rfl⟩

/-- Any other option is read whatever the PIN. -/
theorem read_pin (hne : o ≠ .pin) (value : String) (a : Arguments) (p : Option String) :
    o.read value { a with pin := p } = (o.read value a).map fun a => { a with pin := p } := by
  cases o
  case pin => exact absurd rfl hne
  case nickname => rfl
  case settingsFile | outputFolder | certificate | key =>
    simp only [read]
    cases readPath value <;> rfl
  case port | broadcastPort =>
    simp only [read]
    cases readPort value <;> rfl
  case broadcastInterval | maxBody =>
    simp only [read]
    cases readCount value <;> rfl

end Setting

namespace Reading

variable {r r' s s' : Reading} {o : Setting} {value : String}
  {environment environment' : Environment}

theorem take_ok (h : r.take o value = .ok s) :
    o ∉ r.given ∧ ∃ a, o.read value r.arguments = .ok a ∧
      s = { r with arguments := a, given := o :: r.given } := by
  unfold take at h
  split at h
  · cases h
  rename_i hfresh
  obtain ⟨a, ha, hs⟩ := exists_of_bind_ok h
  cases hs
  exact ⟨by simpa using hfresh, a, ha, rfl⟩

theorem take_of_fresh (h : o ∉ r.given) (value : String) :
    r.take o value = (o.read value r.arguments).map fun a =>
      { r with arguments := a, given := o :: r.given } := by
  unfold take
  rw [if_neg (by simpa using h)]
  cases o.read value r.arguments <;> rfl

/-- Two readings that differ in nothing but the PIN. -/
structure SameButPin (r r' : Reading) : Prop where
  arguments : r.arguments = { r'.arguments with pin := r.arguments.pin }
  given : ∀ o, o ≠ .pin → (o ∈ r.given ↔ o ∈ r'.given)

/-- The PIN is read from its variable without fault, if at all. -/
theorem fromVariable_pin (environment : Environment) (r : Reading) :
    ∃ s, r.fromVariable environment .pin = .ok s ∧ s.SameButPin r ∧ ∀ o ∈ r.given, o ∈ s.given := by
  unfold fromVariable
  split
  · exact ⟨r, rfl, ⟨rfl, fun _ _ => Iff.rfl⟩, fun _ h => h⟩
  rename_i hfresh
  split
  · exact ⟨r, rfl, ⟨rfl, fun _ _ => Iff.rfl⟩, fun _ h => h⟩
  rename_i value _
  rw [take_of_fresh (by simpa using hfresh)]
  refine ⟨_, rfl, ⟨rfl, fun o hne => ?_⟩, fun _ h => List.mem_cons_of_mem _ h⟩
  simp [hne]

theorem SameButPin.trans {q : Reading} (h : r.SameButPin s) (h' : s.SameButPin q) :
    r.SameButPin q := by
  refine ⟨?_, fun o hne => (h.given o hne).trans (h'.given o hne)⟩
  rw [h.arguments, h'.arguments]

theorem SameButPin.symm (h : r.SameButPin s) : s.SameButPin r := by
  refine ⟨?_, fun o hne => (h.given o hne).symm⟩
  rw [h.arguments]

/-! ### Reading the environment -/

/-- One option is read alike with two environments that agree on its variable. -/
theorem fromVariable_sameButPin (h : r.SameButPin r')
    (hlook : o ≠ .pin → o ∉ r.given →
      environment.lookup o.variableName = environment'.lookup o.variableName) :
    (∃ e, r.fromVariable environment o = .error e ∧ r'.fromVariable environment' o = .error e) ∨
      ∃ s s', r.fromVariable environment o = .ok s ∧ r'.fromVariable environment' o = .ok s' ∧
        s.SameButPin s' ∧ ∀ o ∈ r.given, o ∈ s.given := by
  by_cases hpin : o = .pin
  · subst hpin
    obtain ⟨s, hs, hsame, hgrows⟩ := fromVariable_pin environment r
    obtain ⟨s', hs', hsame', -⟩ := fromVariable_pin environment' r'
    exact Or.inr ⟨s, s', hs, hs', (hsame.trans h).trans hsame'.symm, hgrows⟩
  have hgiven := h.given o hpin
  unfold fromVariable
  by_cases hnamed : o ∈ r.given
  · rw [if_pos (by simpa using hnamed), if_pos (by simpa using hgiven.mp hnamed)]
    exact Or.inr ⟨r, r', rfl, rfl, h, fun _ h => h⟩
  have hnamed' : o ∉ r'.given := fun hmem => hnamed (hgiven.mpr hmem)
  rw [if_neg (by simpa using hnamed), if_neg (by simpa using hnamed'), hlook hpin hnamed]
  cases environment'.lookup o.variableName with
  | none => exact Or.inr ⟨r, r', rfl, rfl, h, fun _ h => h⟩
  | some value =>
    dsimp only
    rw [take_of_fresh hnamed, take_of_fresh hnamed', h.arguments, Setting.read_pin hpin]
    cases o.read value r'.arguments with
    | error e => exact Or.inl ⟨e, rfl, rfl⟩
    | ok a =>
      refine Or.inr ⟨_, _, rfl, rfl, ⟨rfl, fun o' hne => ?_⟩,
        fun _ h => List.mem_cons_of_mem _ h⟩
      simp [h.given o' hne]

/-- **Options are read alike**, the PIN apart, with two environments that agree on the variables of
those that the words have not named. -/
theorem fold_sameButPin (os : List Setting) (h : r.SameButPin r')
    (hlook : ∀ o, o ≠ .pin → o ∉ r.given →
      environment.lookup o.variableName = environment'.lookup o.variableName) :
    (∃ e, os.foldlM (fromVariable environment) r = .error e ∧
        os.foldlM (fromVariable environment') r' = .error e) ∨
      ∃ s s', os.foldlM (fromVariable environment) r = .ok s ∧
        os.foldlM (fromVariable environment') r' = .ok s' ∧ s.SameButPin s' := by
  induction os generalizing r r' with
  | nil => exact Or.inr ⟨r, r', rfl, rfl, h⟩
  | cons o os ih =>
    simp only [List.foldlM_cons]
    rcases fromVariable_sameButPin h (hlook o) with ⟨e, he, he'⟩ | ⟨s, s', hs, hs', hsame, hgrows⟩
    · rw [he, he']
      exact Or.inl ⟨e, rfl, rfl⟩
    · rw [hs, hs']
      exact ih hsame fun o hne hnot => hlook o hne fun hmem => hnot (hgrows o hmem)

/-- **The PIN is read from its variable** unless the words have named it; no flag is. -/
theorem fold_pin {os : List Setting} (h : os.foldlM (fromVariable environment) r = .ok s) :
    s.arguments.randomPin = r.arguments.randomPin ∧
      s.arguments.pin = if .pin ∈ os ∧ .pin ∉ r.given then
        (environment.lookup Setting.pin.variableName).or r.arguments.pin else r.arguments.pin := by
  induction os generalizing r with
  | nil =>
    cases h
    exact ⟨rfl, by simp⟩
  | cons o os ih =>
    rw [List.foldlM_cons] at h
    obtain ⟨q, hq, hrest⟩ := exists_of_bind_ok h
    obtain ⟨hrandom, hpin⟩ := ih hrest
    unfold fromVariable at hq
    split at hq
    · cases hq
      rename_i hnamed
      refine ⟨hrandom, hpin.trans ?_⟩
      rcases Decidable.em (o = .pin) with rfl | hne
      · simp [show Setting.pin ∈ r.given by simpa using hnamed]
      · simp [Ne.symm hne]
    split at hq
    · cases hq
      rename_i hnone
      refine ⟨hrandom, hpin.trans ?_⟩
      rcases Decidable.em (o = .pin) with rfl | hne
      · simp [hnone]
      · simp [Ne.symm hne]
    · rename_i value hvalue
      obtain ⟨hfresh, a, ha, rfl⟩ := take_ok hq
      obtain ⟨hkeeps, hkept⟩ := Setting.read_keeps ha
      refine ⟨hrandom.trans hkeeps, hpin.trans ?_⟩
      rcases Decidable.em (o = .pin) with rfl | hne
      · simp [hkept, hvalue, hfresh]
      · simp [hkept, hne, Ne.symm hne]

/-! ### Reading the words -/

/-- An option for the PIN that has been given has its value. -/
def Sound (r : Reading) : Prop :=
  .pin ∈ r.given → r.arguments.pin.isSome

theorem Sound.take (h : r.Sound) (ht : r.take o value = .ok s) : s.Sound := by
  obtain ⟨-, a, ha, rfl⟩ := take_ok ht
  obtain ⟨-, hpin⟩ := Setting.read_keeps ha
  intro hmem
  change a.pin.isSome
  rcases Decidable.em (o = .pin) with rfl | hne
  · simp [hpin]
  · rw [hpin, if_neg hne]
    exact h ((List.mem_cons.mp hmem).resolve_left (Ne.symm hne))

theorem Sound.settle (h : r.Sound) (hs : r.settle = .ok s) : s.Sound := by
  unfold Reading.settle at hs
  split at hs
  · cases hs
    exact h
  · cases hs
  · exact Sound.take (r := { r with pending := none }) h hs

theorem Sound.raise (h : r.Sound) {f : Flag} (hs : r.raise f = .ok s) : s.Sound := by
  unfold Reading.raise at hs
  obtain ⟨q, hq, hs⟩ := exists_of_bind_ok hs
  have hsound := h.settle hq
  cases f with
  | help | version => cases hs
  | randomPin | verbose =>
    dsimp only at hs
    split at hs
    · cases hs
    · cases hs
      exact hsound

theorem Sound.long (h : r.Sound) {word : List Char} (hs : r.long word = .ok s) : s.Sound := by
  unfold Reading.long at hs
  dsimp only at hs
  split at hs
  · cases hs
  · exact h.raise hs
  · split at hs
    · obtain ⟨q, hq, hs⟩ := exists_of_bind_ok hs
      exact (h.settle hq).take hs
    · obtain ⟨q, hq, hs⟩ := exists_of_bind_ok hs
      have hsettled := h.settle hq
      cases hs
      exact hsettled
    · cases hs

theorem Sound.letters (h : r.Sound) {cs : List Char} (hs : r.letters cs = .ok s) : s.Sound := by
  induction cs generalizing r with
  | nil =>
    cases hs
    exact h
  | cons c cs ih =>
    unfold Reading.letters at hs
    split at hs
    · obtain ⟨q, hq, hs⟩ := exists_of_bind_ok hs
      exact ih (h.raise hq) hs
    · cases hs

theorem Sound.plain (h : r.Sound) {w : String} (hs : r.plain w = .ok s) : s.Sound := by
  unfold Reading.plain at hs
  split at hs
  · cases hs
    exact h
  · cases hs

theorem Sound.word (h : r.Sound) {w : String} (hs : r.word w = .ok s) : s.Sound := by
  unfold Reading.word at hs
  split at hs
  · cases hs
  split at hs
  · cases hs
    exact h
  · exact h.long hs
  · exact h.letters hs
  · exact h.plain hs

theorem Sound.words (h : r.Sound) {words : List String} (hs : words.foldlM Reading.word r = .ok s) :
    s.Sound := by
  induction words generalizing r with
  | nil =>
    cases hs
    exact h
  | cons w words ih =>
    rw [List.foldlM_cons] at hs
    obtain ⟨q, hq, hs⟩ := exists_of_bind_ok hs
    exact ih (h.word hq) hs

/-! ### Finishing -/

theorem finished_conflict (hrandom : r.arguments.randomPin = true)
    (hpin : r.arguments.pin.isSome) : r.finished = .error .conflict :=
  if_pos ⟨hrandom, hpin⟩

theorem finished_ok {a : Arguments} (h : r.finished = .ok a) :
    a = r.arguments ∧ (a.randomPin = true → a.pin = none) := by
  unfold finished at h
  split at h
  · cases h
  · rename_i hnot
    cases h
    exact ⟨rfl, fun hrandom => by simpa [hrandom] using hnot⟩

theorem SameButPin.finished (h : s.SameButPin s') (hpin : s.arguments.pin = s'.arguments.pin) :
    s.finished = s'.finished := by
  have harguments : s.arguments = s'.arguments := by rw [h.arguments, hpin]
  rw [Reading.finished, Reading.finished, harguments]

end Reading

namespace Arguments

variable {words : List String} {environment : Environment} {r : Reading}

theorem sound_ofWords (h : ofWords words = .ok r) : r.Sound := by
  obtain ⟨q, hq, h⟩ := exists_of_bind_ok h
  have hstart : Reading.Sound {} := nofun
  exact (hstart.words hq).settle h

/-- When the words have been read, the environment is, and then the arguments are there. -/
theorem parse_ok (h : ofWords words = .ok r) (environment : Environment) :
    parse words environment =
      (Setting.all.foldlM (Reading.fromVariable environment) r >>= Reading.finished) := by
  obtain ⟨q, hq, h⟩ := exists_of_bind_ok h
  unfold parse
  rw [hq]
  change (q.settle >>= _) = _
  rw [h]
  rfl

theorem parse_error {e : UsageError} (h : ofWords words = .error e) (environment : Environment) :
    parse words environment = .error e := by
  unfold ofWords at h
  unfold parse
  cases hw : words.foldlM Reading.word {} with
  | error e' =>
    rw [hw] at h
    cases h
    rfl
  | ok q =>
    rw [hw] at h
    change q.settle = _ at h
    change (q.settle >>= _) = _
    rw [h]
    rfl

/-! ### Leaving variables out -/

theorem lookup_filter (environment : Environment) (keep : String → Bool) (name : String) :
    (environment.filter fun entry => keep entry.1).lookup name =
      if keep name then environment.lookup name else none := by
  induction environment with
  | nil => simp
  | cons entry rest ih =>
    obtain ⟨key, value⟩ := entry
    by_cases hname : name = key
    · subst hname
      cases hkeep : keep name with
      | true => simp [hkeep]
      | false => simp [hkeep, ih]
    · have hbeq : (name == key) = false := beq_false_of_ne hname
      cases hkeep : keep key <;> simp [hkeep, List.lookup_cons, hbeq, ih]

theorem undecided_eq (h : ofWords words = .ok r) (environment : Environment) :
    undecided words environment = environment.filter fun entry => !r.decides entry.1 := by
  unfold undecided
  rw [h]

/-- The variable of an option is left out if the words name the option, and that of the PIN if they
ask for a random one. -/
theorem lookup_undecided (h : ofWords words = .ok r) (environment : Environment) (o : Setting) :
    (undecided words environment).lookup o.variableName =
      if o ∈ r.given ∨ r.arguments.randomPin = true ∧ o = .pin then none
      else environment.lookup o.variableName := by
  have hdecides : r.decides o.variableName = true ↔
      o ∈ r.given ∨ r.arguments.randomPin = true ∧ o = .pin := by
    simp only [Reading.decides, Bool.or_eq_true, List.any_eq_true, Bool.and_eq_true, beq_iff_eq]
    refine or_congr ⟨?_, fun hmem => ⟨o, hmem, rfl⟩⟩ (and_congr_right fun _ =>
      ⟨Setting.variableName_inj, congrArg _⟩)
    rintro ⟨o', hmem, hname⟩
    rwa [← Setting.variableName_inj hname]
  rw [undecided_eq h, lookup_filter environment fun name => !r.decides name]
  by_cases hd : r.decides o.variableName = true
  · rw [if_pos (hdecides.mp hd)]
    simp [hd]
  · rw [if_neg fun hc => hd (hdecides.mpr hc)]
    simp [hd]

/-- The words ask for a random PIN and all is well without the variables for what they name, but the
PIN's variable is set. -/
def Clashes (words : List String) (environment : Environment) : Prop :=
  ∃ a, parse words (undecided words environment) = .ok a ∧ a.randomPin = true ∧
    (environment.lookup Setting.pin.variableName).isSome

/-- Where the words do not ask for a random PIN, nothing clashes. -/
theorem not_clashes {s' : Reading} (hrandom : s'.arguments.randomPin = false)
    (hparse : parse words (undecided words environment) = s'.finished) :
    ¬ Clashes words environment := by
  rintro ⟨a, ha, harandom, -⟩
  obtain ⟨rfl, -⟩ := Reading.finished_ok (hparse.symm.trans ha)
  simp [hrandom] at harandom

/-- Nor where they do so in vain. -/
theorem not_clashes_of_conflict
    (hparse : parse words (undecided words environment) = .error .conflict) :
    ¬ Clashes words environment := by
  rintro ⟨a, ha, -⟩
  rw [hparse] at ha
  cases ha

/-- **The arguments are the same without the variables for what the words name**, unless a random
PIN is asked for and the PIN has a variable: then they conflict with it. -/
theorem parse_undecided (words : List String) (environment : Environment) :
    parse words environment = parse words (undecided words environment) ∧
        ¬ Clashes words environment ∨
      parse words environment = .error .conflict ∧ Clashes words environment := by
  cases hr : ofWords words with
  | error e =>
    refine Or.inl ⟨by rw [parse_error hr, parse_error hr], ?_⟩
    rintro ⟨a, ha, -⟩
    rw [parse_error hr] at ha
    cases ha
  | ok r =>
    have hlook (o : Setting) (hne : o ≠ .pin) (hnot : o ∉ r.given) :
        environment.lookup o.variableName =
          (undecided words environment).lookup o.variableName := by
      rw [lookup_undecided hr, if_neg (by simp [hne, hnot])]
    rcases Reading.fold_sameButPin Setting.all ⟨rfl, fun _ _ => Iff.rfl⟩ hlook with
      ⟨e, he, he'⟩ | ⟨s, s', hs, hs', hsame⟩
    · have hparse := parse_ok hr environment
      have hparse' := parse_ok hr (undecided words environment)
      rw [he] at hparse
      rw [he'] at hparse'
      refine Or.inl ⟨hparse.trans hparse'.symm, ?_⟩
      rintro ⟨a, ha, -⟩
      rw [hparse'] at ha
      cases ha
    have hparse : parse words environment = s.finished := by
      rw [parse_ok hr, hs]
      rfl
    have hparse' : parse words (undecided words environment) = s'.finished := by
      rw [parse_ok hr, hs']
      rfl
    obtain ⟨hrandom, hpin⟩ := Reading.fold_pin hs
    obtain ⟨hrandom', hpin'⟩ := Reading.fold_pin hs'
    rw [lookup_undecided hr] at hpin'
    simp only [show Setting.pin ∈ Setting.all by decide, true_and, and_true] at hpin hpin'
    have hequal (hp : s.arguments.pin = s'.arguments.pin) :
        parse words environment = parse words (undecided words environment) := by
      rw [hparse, hparse', hsame.finished hp]
    cases hasked : r.arguments.randomPin with
    | false =>
      have hsamePin : s.arguments.pin = s'.arguments.pin := by
        by_cases hnamed : .pin ∈ r.given <;> simp [hpin, hpin', hnamed, hasked]
      exact Or.inl ⟨hequal hsamePin, not_clashes (hrandom'.trans hasked) hparse'⟩
    | true =>
      have hconflict' (hsome : s'.arguments.pin.isSome) :=
        hparse'.trans (Reading.finished_conflict (hrandom'.trans hasked) hsome)
      by_cases hnamed : .pin ∈ r.given
      · -- the words give a PIN as well, so there is a conflict whatever the environment
        simp only [hnamed, not_true_eq_false, if_false] at hpin hpin'
        have hsome := sound_ofWords hr hnamed
        rw [← hpin'] at hsome
        exact Or.inl ⟨hequal (hpin.trans hpin'.symm), not_clashes_of_conflict (hconflict' hsome)⟩
      simp only [hnamed, hasked, not_false_eq_true, if_true, or_true, Option.none_or] at hpin hpin'
      cases henv : environment.lookup Setting.pin.variableName with
      | none =>
        rw [henv, Option.none_or] at hpin
        exact Or.inl ⟨hequal (hpin.trans hpin'.symm), by rintro ⟨a, -, -, h⟩; simp [henv] at h⟩
      | some value =>
        have hconflict := hparse.trans
          (Reading.finished_conflict (hrandom.trans hasked) (by rw [hpin, henv]; rfl))
        by_cases hsome : s'.arguments.pin.isSome
        · exact Or.inl ⟨hconflict.trans (hconflict' hsome).symm,
            not_clashes_of_conflict (hconflict' hsome)⟩
        · exact Or.inr ⟨hconflict, s'.arguments, hparse'.trans (if_neg fun h => hsome h.2),
            hrandom'.trans hasked, by rw [henv]; rfl⟩

/-- **The settings are the same without them.** Where they are kept is not told by a variable of an
option. -/
theorem settings_undecided (a : Arguments) (words : List String) (environment : Environment)
    (randomPin : String) (d : Disk) (home : Option Path) :
    a.settings (undecided words environment) randomPin d home =
      a.settings environment randomPin d home := by
  have hkept (name : String) (hname : ∀ o : Setting, o.variableName ≠ name) :
      (undecided words environment).lookup name = environment.lookup name := by
    cases hr : ofWords words with
    | error e => rw [undecided, hr]
    | ok r =>
      have hfree : r.decides name = false := by
        simp only [Reading.decides, Bool.or_eq_false_iff, List.any_eq_false, Bool.and_eq_false_iff,
          beq_iff_eq, beq_eq_false_iff_ne]
        exact ⟨fun o _ => hname o, Or.inr (Ne.symm (hname .pin))⟩
      rw [undecided_eq hr, lookup_filter environment fun name => !r.decides name, hfree]
      rfl
  have hplace : Settings.standardPath? (undecided words environment) home =
      Settings.standardPath? environment home := by
    have hfolder := hkept Settings.folderVariable fun o => by cases o <;> decide
    have hhome := hkept "HOME" fun o => by cases o <;> decide
    have huser := hkept "XDG_CONFIG_HOME" fun o => by cases o <;> decide
    simp only [Settings.standardPath?, Settings.userFolder, Settings.homeFolder?, hfolder, hhome,
      huser]
  have hground : a.ground (undecided words environment) d home = a.ground environment d home := by
    simp only [ground, Settings.loadStandard, hplace]
  rw [settings, settings, hground]

/-- **The words prevail over the environment.** Whatever the words, the environment, the random PIN,
the disk and the home of the account, if it has one: the arguments and the settings they ask for
are what they are without the variables for what the words name, with one exception. If the words
ask for a random PIN and all is well without those variables, but the PIN's variable is set, even to
nothing, there is a conflict. -/
theorem words_prevail_iff (words : List String) (environment : Environment) (randomPin : String)
    (d : Disk) (home : Option Path) :
    (outcome words environment randomPin d home =
        outcome words (undecided words environment) randomPin d home ↔
      ¬ Clashes words environment) ∧
    (Clashes words environment →
      outcome words environment randomPin d home = .error .conflict) := by
  have hsettings :
      (fun a : Arguments => (a, a.settings (undecided words environment) randomPin d home)) =
        fun a => (a, a.settings environment randomPin d home) :=
    funext fun a => by rw [settings_undecided]
  unfold outcome
  rw [hsettings]
  rcases parse_undecided words environment with ⟨hsame, hnot⟩ | ⟨hconflict, hclashes⟩
  · rw [hsame]
    exact ⟨⟨fun _ => hnot, fun _ => rfl⟩, fun h => absurd h hnot⟩
  · rw [hconflict]
    refine ⟨⟨fun heq => ?_, fun hnot => absurd hclashes hnot⟩, fun _ => rfl⟩
    obtain ⟨a, ha, -⟩ := hclashes
    rw [ha] at heq
    cases heq

theorem random_pin_conflicts :
    parse ["--random-pin"] [("LANSEND_PIN", "1234")] = .error .conflict ∧
      undecided ["--random-pin"] [("LANSEND_PIN", "1234")] = [] ∧
      parse ["--random-pin"] [] = .ok { randomPin := true } := by
  exact ⟨rfl, rfl, rfl⟩

end Arguments
end FileReceiver
