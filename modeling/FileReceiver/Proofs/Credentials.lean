/-
# Which certificate is used

A receiver looks for its certificate and its key, and uses them if both are
found and fit each other. At the default paths it makes a certificate of its
own when not both are found (`TlsSettings.load_selfSigned_iff`); everything
else stops the start before anything is made on the disk (`start_refused`).
So a certificate that was put there without its key, or a key without its
certificate, is passed over in silence, and only at the default paths
(`credentials_spared_iff`).

Key definitions: `Disk.Intact`, `TlsSettings.findsCertificate`,
`TlsSettings.findsKey`, `TlsSettings.Lacking`, `Settings.AtDefaultPaths`,
`SparesCredentials`, `PassesOver`.
Key theorems: `TlsSettings.load_selfSigned_iff`,
`TlsSettings.load_configured_iff`, `start_refused`, `credentials_spared_iff`.
-/
import FileReceiver.Proofs.Containment
import FileReceiver.Startup

namespace FileReceiver

/-! ### Calls that change nothing -/

namespace Disk

variable {d d' d'' : Disk}

/-- A disk after calls that have drawn faults, and have changed nothing else. -/
def Intact (d d' : Disk) : Prop :=
  ∃ left, d' = { d with faults := left }

theorem Intact.later (d : Disk) : d.Intact d.later := ⟨d.faults.tail, rfl⟩

theorem Intact.trans (h : d.Intact d') (h' : d'.Intact d'') : d.Intact d'' := by
  obtain ⟨left, rfl⟩ := h
  obtain ⟨left', rfl⟩ := h'
  exact ⟨left', rfl⟩

theorem probe_intact (d : Disk) (p : Path) : d.Intact (d.probe p).2 := by
  rw [probe_later]
  exact .later d

theorem read_intact (d : Disk) (p : Path) : d.Intact (d.read p).2 := by
  unfold read
  rcases d.attempt_cases _ with ⟨e, ha⟩ | ha
  · rw [ha]
    exact .later d
  rw [ha]
  repeat' split
  all_goals exact .later d

theorem stands_iff {p : Path} : d.stands p = true ↔ ∃ place e, d.resolve .followed p = .ok place ∧
    d.get? place.location = some e ∧ (e = .folder ∨ place.wantsFolder = false) := by
  unfold stands
  cases d.resolve .followed p with
  | error e => simp
  | ok place =>
    cases hget : d.get? place.location with
    | none => simp [hget]
    | some e => cases e <;> simp [hget]

/-- A fault that is drawn changes nothing about what stands. -/
theorem stands_later (d : Disk) (p : Path) : d.later.stands p = d.stands p := by
  rw [Bool.eq_iff_iff, stands_iff, stands_iff]
  simp only [resolve_later, get?_later]

/-- What a probe finds stands there. -/
theorem stands_of_probe {p : Path} (h : (d.probe p).1 = true) : d.stands p = true := by
  unfold probe at h
  rcases d.draw_cases with ⟨fault, hd, -⟩ | hd
  · rw [hd] at h
    cases h
  · rw [hd] at h
    rwa [← stands_later]

/-- Without faults a probe finds what stands there. -/
theorem probe_quiet (h : d.faults = []) (p : Path) : (d.probe p).1 = d.stands p := by
  rw [probe, draw, h]

end Disk

/-! ### Loading -/

namespace TlsSettings

variable {t : TlsSettings} {names : List String} {certifies : List String → Bool} {d : Disk}

/-- Whether the certificate is found: the call does not fail, and something stands there. -/
def findsCertificate (t : TlsSettings) (d : Disk) : Bool := (d.probe t.certificate).1

/-- Whether the key is found, which is looked for next. -/
def findsKey (t : TlsSettings) (d : Disk) : Bool := ((d.probe t.certificate).2.probe t.key).1

/-- What comes of the two files that are found, and the disk after they have been read. -/
def fitting (t : TlsSettings) (d : Disk) : Except CredentialFault Unit × Disk :=
  t.loadFiles ((d.probe t.certificate).2.probe t.key).2

theorem stands_of_findsKey (h : t.findsKey d = true) : d.stands t.key = true := by
  have hstands := Disk.stands_of_probe h
  rwa [Disk.probe_later, Disk.stands_later] at hstands

theorem finds_quiet (h : d.faults = []) :
    t.findsCertificate d = d.stands t.certificate ∧ t.findsKey d = d.stands t.key := by
  refine ⟨Disk.probe_quiet h _, ?_⟩
  rw [findsKey, Disk.probe_later, Disk.later_of_quiet h]
  exact Disk.probe_quiet h _

theorem loadFiles_intact (t : TlsSettings) (d : Disk) : d.Intact (t.loadFiles d).2 := by
  unfold loadFiles
  have hcertificate := d.read_intact t.certificate
  split
  · rename_i heq
    rwa [heq] at hcertificate
  rename_i d' heq
  rw [heq] at hcertificate
  have hkey := hcertificate.trans (d'.read_intact t.key)
  split
  · rename_i heq'
    rwa [heq'] at hkey
  · rename_i heq'
    rw [heq'] at hkey
    split <;> exact hkey

/-- Whatever comes of loading, the disk is left as it is. -/
theorem load_intact (t : TlsSettings) (names : List String) (d : Disk)
    (certifies : List String → Bool) :
    d.Intact (t.load names d certifies).2 := by
  have hprobed :=
    (d.probe_intact t.certificate).trans ((d.probe t.certificate).2.probe_intact t.key)
  have hread := hprobed.trans (loadFiles_intact t _)
  unfold load
  dsimp only
  split
  · split
    all_goals
      rename_i heq
      rwa [heq] at hread
  · repeat' split
    all_goals exact hprobed

theorem load_found (hcertificate : t.findsCertificate d = true) (hkey : t.findsKey d = true) :
    (t.load names d certifies).1 = match (t.fitting d).1 with
      | .ok () => .ok .configured
      | .error fault => .error (.unusable t.certificate t.key fault) := by
  unfold findsCertificate at hcertificate
  unfold findsKey at hkey
  unfold load fitting
  simp only [hcertificate, hkey, Bool.and_true, if_true]
  rcases t.loadFiles _ with ⟨_ | _, _⟩ <;> rfl

theorem load_missing (h : ¬ (t.findsCertificate d = true ∧ t.findsKey d = true)) :
    (t.load names d certifies).1 =
      if t.allowSelfSigned then
        if certifies names then .ok .selfSigned else .error .tooManyNames
      else .error (.notFound t.certificate t.key) := by
  unfold load
  dsimp only
  rw [if_neg (by simpa [findsCertificate, findsKey] using h)]
  repeat' split
  all_goals rfl

/-- **A certificate is made** just where it may be missing, and one of the files is. -/
theorem load_selfSigned_iff : (t.load names d certifies).1 = .ok .selfSigned ↔
    t.allowSelfSigned = true ∧ ¬ (t.findsCertificate d = true ∧ t.findsKey d = true) ∧
      certifies names = true := by
  by_cases hfound : t.findsCertificate d = true ∧ t.findsKey d = true
  · rw [load_found hfound.1 hfound.2]
    refine ⟨fun h => ?_, fun h => absurd hfound h.2.1⟩
    split at h <;> cases h
  · rw [load_missing hfound]
    cases t.allowSelfSigned <;> cases certifies names <;> simp [hfound]

/-- The files are used just if both are found and fit each other. -/
theorem load_configured_iff : (t.load names d certifies).1 = .ok .configured ↔
    t.findsCertificate d = true ∧ t.findsKey d = true ∧ (t.fitting d).1 = .ok () := by
  by_cases hfound : t.findsCertificate d = true ∧ t.findsKey d = true
  · rw [load_found hfound.1 hfound.2]
    rcases (t.fitting d).1 with fault | ⟨⟩ <;> simp [hfound]
  · rw [load_missing hfound]
    refine ⟨fun h => ?_, fun h => absurd ⟨h.1, h.2.1⟩ hfound⟩
    repeat' split at h
    all_goals cases h

/-- Credentials with which no receiver is to start: one of the files stands there without the other,
both stand there and do not fit, or one of them is missing at a path of its own. -/
inductive Lacking (t : TlsSettings) (d : Disk) : Prop
  | alone (h : d.stands t.certificate ≠ d.stands t.key)
  | unfit (hcertificate : d.stands t.certificate = true) (hkey : d.stands t.key = true)
      (fault : CredentialFault) (h : (t.fitting d).1 = .error fault)
  | certificate (helsewhere : t.certificate.sameAs ⟨"cert.pem"⟩ = false)
      (h : d.stands t.certificate = false)
  | key (helsewhere : t.key.sameAs ⟨"key.pem"⟩ = false) (h : d.stands t.key = false)

/-- Nothing is lacking if the files are used. -/
theorem not_lacking_of_configured (h : (t.load names d certifies).1 = .ok .configured) :
    ¬ t.Lacking d := by
  obtain ⟨hfound, hfoundKey, hfits⟩ := load_configured_iff.mp h
  have hcertificate := Disk.stands_of_probe hfound
  have hkey := stands_of_findsKey hfoundKey
  intro hlacking
  cases hlacking with
  | alone h => exact h (hcertificate.trans hkey.symm)
  | unfit _ _ fault h => exact absurd (h.symm.trans hfits) (by simp)
  | certificate _ h => exact absurd (hcertificate.symm.trans h) (by decide)
  | key _ h => exact absurd (hkey.symm.trans h) (by decide)

end TlsSettings

/-! ### Starting -/

variable {m : Machine} {s : Settings} {t : TlsSettings} {d : Disk}

/-- **Without a certificate to use nothing starts**, and nothing is made. -/
theorem start_refused {e : TlsError}
    (h : (t.load [m.address, m.hostname] d m.certifies).1 = .error e) :
    ∃ d', start m s t d = (.error (.tls e), d') ∧ d.Intact d' := by
  have hintact := t.load_intact [m.address, m.hostname] d m.certifies
  rcases hload : t.load [m.address, m.hostname] d m.certifies with ⟨res, d'⟩
  rw [hload] at h hintact
  obtain rfl : res = .error e := h
  exact ⟨d', by rw [start, hload], hintact⟩

/-- A receiver that starts uses what was loaded. -/
theorem start_credential {r : Running} (h : (start m s t d).1 = .ok r) :
    (t.load [m.address, m.hostname] d m.certifies).1 = .ok r.credential := by
  unfold start at h
  split at h
  · cases h
  rename_i heq
  rw [heq]
  dsimp only at h
  split at h
  · cases h
  · rw [← Except.ok.inj h]

/-- The paths of the certificate and of its key are the default ones, by their components. -/
def Settings.AtDefaultPaths (s : Settings) : Prop :=
  s.certificate.sameAs ⟨"cert.pem"⟩ = true ∧ s.key.sameAs ⟨"key.pem"⟩ = true

theorem allowSelfSigned_iff :
    (TlsSettings.ofSettings s).allowSelfSigned = true ↔ s.AtDefaultPaths :=
  Bool.and_eq_true_iff

/-- What is given is not replaced: a certificate is made only for the default paths and where
nothing stands at either of them, and no receiver starts with credentials that are lacking, nor does
it change the disk then. -/
structure SparesCredentials (m : Machine) (s : Settings) (d : Disk) : Prop where
  generated :
    ((TlsSettings.ofSettings s).load [m.address, m.hostname] d m.certifies).1 = .ok .selfSigned →
    s.AtDefaultPaths ∧ d.stands s.certificate = false ∧ d.stands s.key = false
  lacking : (TlsSettings.ofSettings s).Lacking d →
    ∃ e d', run m s d = (.error (.tls e), d') ∧ d.Intact d'

/-- A file stands at one of the default paths, but not both are found, and a certificate can be made
for the machine. -/
structure PassesOver (m : Machine) (s : Settings) (d : Disk) : Prop where
  paths : s.AtDefaultPaths
  stands : d.stands s.certificate = true ∨ d.stands s.key = true
  lost : ¬ ((TlsSettings.ofSettings s).findsCertificate d = true ∧
    (TlsSettings.ofSettings s).findsKey d = true)
  made : m.certifies [m.address, m.hostname] = true

/-- Unless calls fail, it is one file without the other that is passed over. -/
theorem passesOver_quiet (h : d.faults = []) : PassesOver m s d ↔
    s.AtDefaultPaths ∧ d.stands s.certificate ≠ d.stands s.key ∧
      m.certifies [m.address, m.hostname] = true := by
  have hone : ∀ a b : Bool, (a = true ∨ b = true) ∧ ¬ (a = true ∧ b = true) ↔ a ≠ b := by decide
  obtain ⟨hcertificate, hkey⟩ := (TlsSettings.ofSettings s).finds_quiet h
  constructor
  · intro hover
    have hlost := hover.lost
    rw [hcertificate, hkey] at hlost
    exact ⟨hover.paths, (hone _ _).mp ⟨hover.stands, hlost⟩, hover.made⟩
  · rintro ⟨hpaths, halone, hmade⟩
    obtain ⟨hstands, hlost⟩ := (hone _ _).mpr halone
    exact ⟨hpaths, hstands, by rwa [hcertificate, hkey], hmade⟩

/-- A certificate is made where nothing stands, unless a file is passed over. -/
theorem generated_at (hnot : ¬ PassesOver m s d)
    (h : ((TlsSettings.ofSettings s).load [m.address, m.hostname] d m.certifies).1 =
      .ok .selfSigned) :
    s.AtDefaultPaths ∧ d.stands s.certificate = false ∧ d.stands s.key = false := by
  obtain ⟨hallow, hlost, hmade⟩ := TlsSettings.load_selfSigned_iff.mp h
  have hpaths := allowSelfSigned_iff.mp hallow
  have hnone := not_or.mp fun hstands => hnot ⟨hpaths, hstands, hlost, hmade⟩
  exact ⟨hpaths, by simpa using hnone.1, by simpa using hnone.2⟩

/-- Nothing is lacking where nothing stands at the default paths. -/
theorem not_lacking_of_none (hpaths : s.AtDefaultPaths)
    (hcertificate : d.stands s.certificate = false) (hkey : d.stands s.key = false) :
    ¬ (TlsSettings.ofSettings s).Lacking d := by
  intro hlacking
  cases hlacking with
  | alone h => exact h (hcertificate.trans hkey.symm)
  | unfit hstands => exact absurd (hstands.symm.trans hcertificate) (by decide)
  | certificate helsewhere => exact absurd (hpaths.1.symm.trans helsewhere) (by decide)
  | key helsewhere => exact absurd (hpaths.2.symm.trans helsewhere) (by decide)

theorem spares_iff : SparesCredentials m s d ↔ ¬ PassesOver m s d := by
  constructor
  · intro hspares hover
    obtain ⟨-, hcertificate, hkey⟩ := hspares.generated
      (TlsSettings.load_selfSigned_iff.mpr
        ⟨allowSelfSigned_iff.mpr hover.paths, hover.lost, hover.made⟩)
    have hstands := hover.stands
    rw [hcertificate, hkey] at hstands
    exact absurd hstands (by decide)
  · intro hnot
    refine ⟨generated_at hnot, fun hlacking => ?_⟩
    cases hload : ((TlsSettings.ofSettings s).load [m.address, m.hostname] d m.certifies).1 with
    | error e =>
      obtain ⟨d', hstart, hintact⟩ := start_refused (s := s) hload
      exact ⟨e, d', hstart, hintact⟩
    | ok credential =>
      cases credential with
      | selfSigned =>
        obtain ⟨hpaths, hcertificate, hkey⟩ := generated_at hnot hload
        exact absurd hlacking (not_lacking_of_none hpaths hcertificate hkey)
      | configured => exact absurd hlacking (TlsSettings.not_lacking_of_configured hload)

/-- **What is given is spared unless one file stands alone at the default paths.** Whatever the
settings, the machine and the disk, and whatever calls fail: a certificate that is made takes the
place of one that stands there, or a receiver starts without the credentials that it was given, just
if a file stands at one of the default paths and not both are found; unless calls fail, that is if
one stands there without the other. A certificate is made just at the default paths and if not both
files are found; the files are used just if both are found and fit; in every other case nothing
starts and the disk stays as it is. -/
theorem credentials_spared_iff (m : Machine) (s : Settings) (d : Disk) :
    let t := TlsSettings.ofSettings s
    let loaded := (t.load [m.address, m.hostname] d m.certifies).1
    (SparesCredentials m s d ↔ ¬ PassesOver m s d) ∧
    (d.faults = [] → (PassesOver m s d ↔
      s.AtDefaultPaths ∧ d.stands s.certificate ≠ d.stands s.key ∧
        m.certifies [m.address, m.hostname] = true)) ∧
    (loaded = .ok .selfSigned ↔
      s.AtDefaultPaths ∧ ¬ (t.findsCertificate d = true ∧ t.findsKey d = true) ∧
        m.certifies [m.address, m.hostname] = true) ∧
    (loaded = .ok .configured ↔
      t.findsCertificate d = true ∧ t.findsKey d = true ∧ (t.fitting d).1 = .ok ()) ∧
    (∀ e, loaded = .error e → ∃ d', run m s d = (.error (.tls e), d') ∧ d.Intact d') ∧
    (∀ r, (run m s d).1 = .ok r → loaded = .ok r.credential) := by
  intro t loaded
  refine ⟨spares_iff, passesOver_quiet, ?_, TlsSettings.load_configured_iff,
    fun e => start_refused, fun r => start_credential⟩
  rw [TlsSettings.load_selfSigned_iff, allowSelfSigned_iff]

/-- A machine without credentials, on which the ports are free. -/
def freeMachine : Machine where
  deviceId := Device.idOf 1700000000000 0x0123abcd
  hostname := "localhost"
  operatingSystem := "linux"
  address := "127.0.0.1"
  bind p := some (if p = 0 then 49152 else p)

/-- A certificate stands alone at the default path: the receiver starts with one of its own, and the
folder for received files is made. -/
theorem lone_certificate_replaced :
    let d := Disk.put { entries := ∅ } ["cert.pem"] (.file Disk.commonMode "x".toUTF8)
    (TlsSettings.ofSettings {}).Lacking d ∧ d.stands ⟨"cert.pem"⟩ = true ∧
      (run freeMachine {} d).1.toOption.map (·.credential) = some .selfSigned ∧
      (run freeMachine {} d).2.isFolder ⟨"received_files"⟩ = true ∧
      ¬ SparesCredentials freeMachine {} d := by
  intro d
  have hstands : d.stands ⟨"cert.pem"⟩ = true := by decide +kernel
  have halone : d.stands ⟨"cert.pem"⟩ ≠ d.stands ⟨"key.pem"⟩ := by decide +kernel
  have hover : PassesOver freeMachine {} d :=
    (passesOver_quiet rfl).mpr ⟨⟨by decide, by decide⟩, halone, by decide +kernel⟩
  exact ⟨.alone halone, hstands, by decide +kernel, by decide +kernel,
    fun hspares => spares_iff.mp hspares hover⟩

end FileReceiver
