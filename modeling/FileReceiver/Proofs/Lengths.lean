/-
# How long stored names are

A name is cut to 255 bytes, which is what a name on the disk may have. But a
number makes it longer after that, and so does the staging suffix
(`utf8ByteSize_triedName`, `utf8ByteSize_staged`). So a file that is accepted
can be received just if its name, with the number it was given, leaves room
for the suffix; of any other file the first chunk is refused, and so is every
chunk that is sent in its place.

Key definitions: `FileName.numberLength`, `Transfer.NamesFit`, `Disk.HasRoom`,
`Transfer.Unhindered`.
Key theorems: `FileName.utf8ByteSize_sanitize`, `utf8ByteSize_triedName`,
`Transfer.LiesIn.namesFit_iff`, `Receiver.accepted_names_fit_iff`.
-/
import FileReceiver.Proofs.Histories

namespace FileReceiver

open FileName (IsPlain stagingSuffix)
open Text (utf8Length utf8Length_append utf8Length_cons)

/-! ### Cut names -/

theorem Text.utf8ByteSize_ofList (s : List Char) :
    (String.ofList s).utf8ByteSize = utf8Length s := by
  induction s with
  | nil => rfl
  | cons c s ih =>
    rw [String.ofList_cons, String.utf8ByteSize_append, String.utf8ByteSize_singleton, ih,
      utf8Length_cons]

theorem Text.utf8Length_toList (s : String) : utf8Length s.toList = s.utf8ByteSize := by
  rw [← utf8ByteSize_ofList, String.ofList_toList]

namespace FileName

theorem utf8Length_fit_le (s : List Char) (limit : Nat) : utf8Length (fit limit s) ≤ limit := by
  induction s generalizing limit with
  | nil => exact Nat.zero_le limit
  | cons c s ih =>
    unfold fit
    split
    · have hrest := ih (limit - c.utf8Size)
      rw [utf8Length_cons]
      omega
    · exact Nat.zero_le limit

theorem utf8Length_truncate_le (s : List Char) : utf8Length (truncate s) ≤ maxLength := by
  rcases truncate_cases s with hs | ⟨base, extension, -, hshort, hs⟩
  · rw [hs]
    exact utf8Length_fit_le s maxLength
  · have hbase := utf8Length_fit_le base (maxLength - utf8Length extension)
    rw [hs, utf8Length_append]
    simp only [maxLength, longExtension] at hbase hshort ⊢
    omega

/-- **Names are cut to the limit.** -/
theorem utf8ByteSize_sanitize (name : String) : (sanitize name).utf8ByteSize ≤ maxLength := by
  rw [sanitize, Text.utf8ByteSize_ofList]
  rcases sanitizeChars_cases name.toList with
    ⟨-, hname⟩ | ⟨-, -, ⟨-, hname⟩ | ⟨hshort, hname⟩⟩ <;> rw [hname]
  · decide
  · exact utf8Length_truncate_le _
  · exact hshort

/-! ### What makes names longer -/

theorem utf8Length_digits (n : Nat) :
    utf8Length (Nat.toDigits 10 n) = (Nat.toDigits 10 n).length := by
  have hascii : ∀ s : List Char, (∀ c ∈ s, c.isDigit) → utf8Length s = s.length := by
    intro s
    induction s with
    | nil => exact fun _ => rfl
    | cons c s ih =>
      intro hs
      have hc : c.utf8Size = 1 := by
        have hdigit := hs c List.mem_cons_self
        simp only [Char.isDigit, ge_iff_le, Bool.and_eq_true, decide_eq_true_eq,
          UInt32.le_iff_toNat_le] at hdigit
        have hhi : c.val.toNat ≤ 57 := hdigit.2
        rw [Char.utf8Size_eq_one_iff, UInt32.le_iff_toNat_le]
        exact Nat.le_trans hhi (by decide)
      rw [utf8Length_cons, hc, ih fun c hc => hs c (List.mem_cons_of_mem _ hc), List.length_cons,
        Nat.add_comm]
  exact hascii _ fun c hc => Nat.isDigit_of_mem_toDigits (by decide) (by decide) hc

/-- The bytes that the `n`-th try puts into a name: a number has a line before it. -/
def numberLength (n : Nat) : Nat := if n = 0 then 0 else 1 + (Nat.toDigits 10 n).length

theorem utf8ByteSize_numbered {name : String} (h : IsPlain name.toList) (n : Nat) :
    (numbered name n).utf8ByteSize = name.utf8ByteSize + (1 + (Nat.toDigits 10 n).length) := by
  have hline : '_'.utf8Size = 1 := rfl
  rw [← Text.utf8Length_toList, ← Text.utf8Length_toList]
  rcases numbered_cases h n with ⟨stem, extension, hname, -, hn⟩ | ⟨stem, -, hn⟩
  · rw [hn, hname]
    simp only [utf8Length_append, utf8Length_cons, utf8Length_digits, hline]
    omega
  · rw [hn]
    simp only [utf8Length_append, utf8Length_cons, utf8Length_digits, hline]

theorem utf8ByteSize_staged (name : String) :
    (name ++ stagingSuffix).utf8ByteSize = name.utf8ByteSize + 5 := by
  rw [String.utf8ByteSize_append]
  rfl

end FileName

theorem utf8ByteSize_triedName {name : String} (h : IsPlain name.toList) (n : Nat) :
    (triedName name n).utf8ByteSize = name.utf8ByteSize + FileName.numberLength n := by
  unfold triedName FileName.numberLength
  split
  · rfl
  · exact FileName.utf8ByteSize_numbered h n

/-! ### Names that fit -/

theorem Path.fileName?_join (folder : Path) {name : String} (h : IsPlain name.toList) :
    (folder.join name).fileName? = some name := by
  rw [fileName?, components_join folder h, List.getLast?_concat]

/-- A path leads to where there is room for a file: nothing stands there, or a file. Whether the
last name can be looked up is left open. -/
def Disk.HasRoom (d : Disk) (p : Path) : Prop :=
  ∃ place, d.resolve .kept p = .ok place ∧ d.Ordinary place.location ∧
    d.get? place.location ≠ some .fullDevice

theorem Disk.HasRoom.join {d : Disk} {folder : Path} {name : String} (hname : IsPlain name.toList)
    (h : d.HasRoom (folder.join name)) :
    ∃ loc, d.folderAt folder = .ok loc ∧
      d.resolve .kept (folder.join name) = .ok ⟨loc, .name name, false⟩ ∧
      d.Ordinary (loc ++ [name]) ∧ d.get? (loc ++ [name]) ≠ some .fullDevice := by
  obtain ⟨place, hr, hord, hdevice⟩ := h
  obtain ⟨loc, hloc, rfl⟩ := resolve_join_ok hname (Or.inl rfl) hr
  exact ⟨loc, hloc, hr, hord, hdevice⟩

namespace Transfer

/-- The last steps of both paths of a transfer are names that an entry may have. -/
def NamesFit (t : Transfer) : Prop :=
  ∃ final staging, t.finalPath.fileName? = some final ∧ t.stagingPath.fileName? = some staging ∧
    final.utf8ByteSize ≤ nameLimit ∧ staging.utf8ByteSize ≤ nameLimit

/-- Nothing stands in the way of a transfer, unless it is the length of its names. -/
structure Unhindered (t : Transfer) (d : Disk) : Prop where
  quiet : d.faults = []
  staging : d.HasRoom t.stagingPath
  final : d.HasRoom t.finalPath

variable {t : Transfer} {d : Disk} {folder : Path} {name : String}

/-- The names fit if the suffix still fits. -/
theorem LiesIn.namesFit_iff (h : t.LiesIn folder name) :
    t.NamesFit ↔ name.utf8ByteSize + 5 ≤ nameLimit := by
  have hfinal : t.finalPath.fileName? = some name := by
    rw [h.final, Path.fileName?_join folder h.plain]
  have hstaging : t.stagingPath.fileName? = some (name ++ stagingSuffix) := by
    rw [h.staging, Path.fileName?_join folder (FileName.plain_staged h.plain)]
  constructor
  · rintro ⟨final, staging, -, hs, -, hfits⟩
    rw [hstaging] at hs
    cases hs
    rwa [FileName.utf8ByteSize_staged] at hfits
  · intro hfits
    refine ⟨name, _, hfinal, hstaging, by omega, ?_⟩
    rwa [FileName.utf8ByteSize_staged]

/-- **Too long to begin with.** No chunk is taken of a file whose staging name is too long, and
nothing changes by sending one. -/
theorem receive_of_tooLong (h : t.LiesIn folder name) (hu : t.Unhindered d)
    (hopen : t.completed = false) (hzero : t.received = 0) (hlong : ¬ t.NamesFit)
    (bytes : ByteArray) : t.receive bytes d = (.failed .nameTooLong, t, d) := by
  have hpart := FileName.plain_staged h.plain
  obtain ⟨loc, hloc, hr, hord, -⟩ := Disk.HasRoom.join hpart (h.staging ▸ hu.staging)
  have hnolink := Disk.noLink_of_isAt (Disk.isAt_of_folderAt hloc) hord.2
  rw [h.namesFit_iff] at hlong
  have hlook : d.lookUp loc (name ++ stagingSuffix) = .error .nameTooLong := by
    rw [Disk.lookUp, if_pos]
    rw [FileName.utf8ByteSize_staged]
    omega
  -- The path is not at fault, only the look-up of its last name is.
  have hmade : d.resolve .made t.stagingPath = .error .nameTooLong := by
    rw [h.staging]
    rw [Disk.resolve_join hpart (Or.inl rfl)] at hr
    rw [Disk.resolve_join hpart (Or.inr hnolink)]
    split at hr
    · cases hr
    rename_i hzero
    split at hr
    · cases hr
    rename_i hshort
    rw [if_neg hzero, if_neg hshort, hloc]
    change d.lastIn .made _ loc = _
    rw [Disk.lastIn, if_neg (by simp), hlook]
    rfl
  have hstaging : t.openStaging d = (.error .nameTooLong, d) := by
    rw [openStaging, if_neg (by omega), Disk.openFresh, Disk.attempt_quiet hu.quiet, hmade]
  rw [receive, if_neg (by simp [hopen]), append, hstaging]

/-- **Short enough.** The first chunk of a file whose names fit is taken. -/
theorem receive_of_namesFit (h : t.LiesIn folder name) (hu : t.Unhindered d)
    (hopen : t.completed = false) (hzero : t.received = 0)
    (hhash : t.hash = none → t.hashVerified = none) (hfits : t.NamesFit) (bytes : ByteArray)
    (e : SystemError) : (t.receive bytes d).1 ≠ .failed e := by
  have hpart := FileName.plain_staged h.plain
  obtain ⟨loc, hloc, hrp, hordp, hdevice⟩ := Disk.HasRoom.join hpart (h.staging ▸ hu.staging)
  obtain ⟨loc', hloc', hrf, hordf, -⟩ := Disk.HasRoom.join h.plain (h.final ▸ hu.final)
  rw [hloc] at hloc'
  cases hloc'
  have hat := Disk.isAt_of_folderAt hloc
  have hnolinkp := Disk.noLink_of_isAt hat hordp.2
  have hnolinkf := Disk.noLink_of_isAt hat hordf.2
  rw [h.namesFit_iff] at hfits
  obtain ⟨locp, hlocp, hleadsp⟩ := Disk.leads_join hpart hrp
    (by rw [FileName.utf8ByteSize_staged]; exact hfits) hnolinkp
  obtain ⟨locf, hlocf, hleadsf⟩ := Disk.leads_join h.plain hrf (by omega) hnolinkf
  rw [hloc] at hlocp hlocf
  cases hlocp
  cases hlocf
  have hplaced : t.Placed d (loc ++ [name ++ stagingSuffix]) (loc ++ [name]) := by
    refine ⟨?_, ?_, by simpa using FileName.staged_ne name⟩
    · rw [h.staging]
      refine Disk.aims_join hpart hat fun target => ?_
      rw [hleadsp.entryAt?]
      exact hordp.2 target
    · rw [h.final]
      refine Disk.aims_join h.plain hat fun target => ?_
      rw [hleadsf.entryAt?]
      exact hordf.2 target
  have hcounts : t.Counts d (loc ++ [name ++ stagingSuffix]) .empty :=
    ⟨hopen, hhash, hzero, Or.inl ⟨rfl, hdevice⟩⟩
  rw [← h.staging] at hleadsp
  rw [← h.final] at hleadsf
  exact receive_ok hu.quiet hcounts hplaced hleadsp hleadsf hordp hordf bytes e

end Transfer

/-! ### Files of a session -/

/-- The files that are accepted are made of what the manifest offers, one after the other. -/
theorem Admission.exists_ofOffer (policy : Policy) (folder : Path) (manifest : Manifest) :
    ∀ t ∈ (ofManifest policy folder manifest).accepted, ∃ fileId offer claims,
      (fileId, offer) ∈ manifest ∧ t = Transfer.ofOffer fileId offer folder claims := by
  refine ofManifest_induction
    (P := fun a => ∀ t ∈ a.accepted, ∃ fileId offer claims,
      (fileId, offer) ∈ manifest ∧ t = Transfer.ofOffer fileId offer folder claims)
    nofun fun a entry hentry h t ht => ?_
  by_cases haccepted : policy (Transfer.ofOffer entry.1 entry.2 folder a.claims) = true
  · rw [addFile_accepted haccepted] at ht
    rcases List.mem_cons.mp ht with rfl | ht
    · exact ⟨_, _, _, hentry, rfl⟩
    · exact h t ht
  · rw [addFile_refused haccepted] at ht
    exact h t ht

/-- An offered file stands under its declared name, made safe, or under a try at numbering it. -/
theorem Transfer.exists_triedName (fileId : String) (offer : FileOffer) (folder : Path)
    (claims : Claims) :
    ∃ n, (ofOffer fileId offer folder claims).LiesIn folder
      (triedName (FileName.sanitize (declaredNameOf fileId offer)) n) := by
  have hplain := FileName.plain_sanitize (declaredNameOf fileId offer)
  obtain ⟨n, hn⟩ := exists_candidate claims folder
    (FileName.sanitize (declaredNameOf fileId offer)) (2 * claims.length) 0
  exact ⟨n, ofOffer_liesIn (plain_triedName hplain n) hn⟩

theorem leastFree_nil (folder : Path) (name : String) :
    leastFree [] folder name = folder.join name := rfl

/-- The first file of a session keeps its name. -/
theorem Transfer.first_liesIn (fileId : String) (offer : FileOffer) (folder : Path) :
    (ofOffer fileId offer folder []).LiesIn folder
      (FileName.sanitize (declaredNameOf fileId offer)) := by
  have hfinal : (ofOffer fileId offer folder []).finalPath =
      folder.join (FileName.sanitize (declaredNameOf fileId offer)) := by
    rw [ofOffer, leastFree_nil]
  exact ofOffer_liesIn (FileName.plain_sanitize (declaredNameOf fileId offer)) hfinal

namespace Receiver

variable {r r' : Receiver} {id : String} {manifest : Manifest} {opened : Opened}

/-- **Room for the suffix.** Each file of a session that has been opened stands under its declared
name, made safe and so cut to the limit, with the number that it was given. Both its names fit just
if that leaves room for the suffix. If nothing else stands in the way, a file whose names fit is
taken, and one whose names do not is refused for it, whatever chunk comes and however often. -/
theorem accepted_names_fit_iff (h : r.openSession id manifest = (.ok opened, r')) :
    ∃ s, r'.session = some s ∧ ∀ t ∈ s.files, ∃ n,
      t.finalPath.fileName? = some (triedName (FileName.sanitize t.declaredName) n) ∧
      t.stagingPath.fileName? =
        some (triedName (FileName.sanitize t.declaredName) n ++ stagingSuffix) ∧
      (FileName.sanitize t.declaredName).utf8ByteSize ≤ nameLimit ∧
      (t.NamesFit ↔
        (FileName.sanitize t.declaredName).utf8ByteSize + FileName.numberLength n + 5 ≤
          nameLimit) ∧
      ∀ (d : Disk) (bytes : ByteArray), t.Unhindered d →
        (t.NamesFit → ∀ e, (t.receive bytes d).1 ≠ .failed e) ∧
        (¬ t.NamesFit → t.receive bytes d = (.failed .nameTooLong, t, d)) := by
  obtain ⟨-, hsession, -⟩ := openSession_ok h
  refine ⟨_, hsession, fun t ht => ?_⟩
  obtain ⟨fileId, offer, claims, -, rfl⟩ :=
    Admission.exists_ofOffer r.policy r.outputFolder manifest t (List.mem_reverse.mp ht)
  obtain ⟨n, hlies⟩ := Transfer.exists_triedName fileId offer r.outputFolder claims
  have hplain := FileName.plain_sanitize (Transfer.declaredNameOf fileId offer)
  refine ⟨n, ?_, ?_, FileName.utf8ByteSize_sanitize _, ?_, fun d bytes hu => ⟨fun hfits e => ?_,
    fun hlong => ?_⟩⟩
  · rw [hlies.final]
    exact Path.fileName?_join _ hlies.plain
  · rw [hlies.staging]
    exact Path.fileName?_join _ (FileName.plain_staged hlies.plain)
  · rw [hlies.namesFit_iff, utf8ByteSize_triedName hplain]
    rfl
  · exact Transfer.receive_of_namesFit hlies hu rfl rfl (fun _ => rfl) hfits bytes e
  · exact Transfer.receive_of_tooLong hlies hu rfl rfl hlong bytes

/-! ### At the limit -/

/-- The disk of the example once there is a folder for received files. -/
def preparedDisk : Disk := (Disk.mk ∅ [] []).put ["out"] .folder

/-- Any name of a common length has room in that folder, also one that is too long. -/
theorem hasRoom_prepared {name : String} (h : IsPlain name.toList)
    (hshort : name.utf8ByteSize ≤ 1000) : preparedDisk.HasRoom ((⟨"out"⟩ : Path).join name) := by
  have htext : ((⟨"out"⟩ : Path).join name).text = "out/" ++ name := by
    rw [Path.join, if_neg (by simp [Path.head?_plain h]), if_neg (by decide)]
    rfl
  have hzero : ((⟨"out"⟩ : Path).join name).text.toList.contains '\x00' = false := by
    rw [htext, String.toList_append, List.contains_eq_mem, decide_eq_false_iff_not, List.mem_append]
    rintro (hout | hname)
    · exact absurd hout (by decide)
    · exact absurd (h.clean _ hname).2 (by decide)
  have hlength : ¬ pathLimit < ((⟨"out"⟩ : Path).join name).text.utf8ByteSize := by
    have hout : "out/".utf8ByteSize = 4 := rfl
    rw [htext, String.utf8ByteSize_append, hout]
    unfold pathLimit
    omega
  have hnone : preparedDisk.get? (["out"] ++ [name]) = none := by
    rw [preparedDisk, Disk.get?_put, if_neg (by simp), if_neg (by simp)]
    rfl
  refine ⟨⟨["out"], .name name, false⟩, ?_, Disk.ordinary_none hnone, ?_⟩
  · rw [Disk.resolve_join h (Or.inl rfl), hzero, if_neg (by simp), if_neg hlength]
    rfl
  · change preparedDisk.get? (["out"] ++ [name]) ≠ _
    rw [hnone]
    simp

/-- The letter a, a number of times. -/
def letters (n : Nat) : String := String.ofList (List.replicate n 'a')

/-- A manifest with one file of that name. -/
def lettersManifest (n : Nat) : Manifest := [("f", { name := some (letters n), size := 1 })]

/-- The file of that manifest. -/
def lettersFile (n : Nat) : Transfer :=
  Transfer.ofOffer "f" { name := some (letters n), size := 1 } ⟨"out"⟩ []

theorem open_letters (n : Nat) :
    unpairedExample.openSession "s" (lettersManifest n) =
      (.ok ⟨"s", [("f", true)], none⟩,
        { unpairedExample with session := some ⟨"s", [lettersFile n]⟩, disk := preparedDisk }) := by
  have hordered : Admission.ordered (lettersManifest n) = lettersManifest n :=
    List.mergeSort_singleton _
  unfold openSession Admission.ofManifest
  rw [hordered]
  rfl

theorem utf8ByteSize_letters (n : Nat) : (letters n).utf8ByteSize = n := by
  rw [letters, Text.utf8ByteSize_ofList]
  induction n with
  | zero => rfl
  | succ n ih =>
    have ha : 'a'.utf8Size = 1 := rfl
    rw [List.replicate_succ, utf8Length_cons, ih, ha, Nat.add_comm]

theorem lettersFile_liesIn {n : Nat} (hpos : n ≠ 0)
    (h : FileName.sanitizeChars (List.replicate n 'a') = List.replicate n 'a') :
    (lettersFile n).LiesIn ⟨"out"⟩ (letters n) := by
  have hdeclared : Transfer.declaredNameOf "f" { name := some (letters n), size := 1 } =
      letters n := by
    refine if_neg fun hempty => hpos ?_
    rw [← utf8ByteSize_letters n, hempty]
    rfl
  have hsafe : FileName.sanitize (letters n) = letters n := by
    rw [FileName.sanitize, letters, String.toList_ofList, h]
  have hlies := Transfer.first_liesIn "f" { name := some (letters n), size := 1 } ⟨"out"⟩
  rwa [hdeclared, hsafe] at hlies

theorem lettersFile_unhindered {n : Nat} (hpos : n ≠ 0) (hlength : n ≤ 255)
    (h : FileName.sanitizeChars (List.replicate n 'a') = List.replicate n 'a') :
    (lettersFile n).Unhindered preparedDisk := by
  have hlies := lettersFile_liesIn hpos h
  refine ⟨rfl, ?_, ?_⟩
  · rw [hlies.staging]
    refine hasRoom_prepared (FileName.plain_staged hlies.plain) ?_
    rw [FileName.utf8ByteSize_staged, utf8ByteSize_letters]
    omega
  · rw [hlies.final]
    refine hasRoom_prepared hlies.plain ?_
    rw [utf8ByteSize_letters]
    omega

theorem longest_name_taken :
    ∃ opened r' s, unpairedExample.openSession "s" (lettersManifest 250) = (.ok opened, r') ∧
      r'.session = some s ∧ ∃ t ∈ s.files, t.Unhindered r'.disk ∧
        ∀ bytes e, (t.receive bytes r'.disk).1 ≠ .failed e := by
  have hname : FileName.sanitizeChars (List.replicate 250 'a') = List.replicate 250 'a' := by
    decide +kernel
  have hopen := open_letters 250
  obtain ⟨s, hs, hfiles⟩ := accepted_names_fit_iff hopen
  have hmem : lettersFile 250 ∈ s.files := by
    cases hs
    exact List.mem_singleton_self _
  obtain ⟨n, -, -, -, -, hreceive⟩ := hfiles _ hmem
  have hunhindered := lettersFile_unhindered (by decide) (by decide) hname
  have hfits : (lettersFile 250).NamesFit := by
    rw [(lettersFile_liesIn (by decide) hname).namesFit_iff, utf8ByteSize_letters]
    decide
  exact ⟨_, _, s, hopen, hs, _, hmem, hunhindered,
    fun bytes => (hreceive preparedDisk bytes hunhindered).1 hfits⟩

theorem too_long_accepted :
    ∃ opened r' s, unpairedExample.openSession "s" (lettersManifest 251) = (.ok opened, r') ∧
      opened.verdicts = [("f", true)] ∧ r'.session = some s ∧
      ∃ t ∈ s.files, ¬ t.NamesFit ∧
        t.receive ⟨#[120]⟩ r'.disk = (.failed .nameTooLong, t, r'.disk) := by
  have hname : FileName.sanitizeChars (List.replicate 251 'a') = List.replicate 251 'a' := by
    decide +kernel
  have hlies := lettersFile_liesIn (by decide) hname
  have hlong : ¬ (lettersFile 251).NamesFit := by
    rw [hlies.namesFit_iff, utf8ByteSize_letters]
    decide
  exact ⟨_, _, _, open_letters 251, rfl, rfl, _, List.mem_singleton_self _, hlong,
    Transfer.receive_of_tooLong hlies (lettersFile_unhindered (by decide) (by decide) hname) rfl rfl
      hlong _⟩

end Receiver
end FileReceiver
