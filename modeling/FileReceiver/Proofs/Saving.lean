/-
# Settings that are saved are loaded

On a disk on which everything stands in a folder (`Disk.Rooted`), a path that
a call follows to make a file leads to a name in a folder, or to a folder. So
a file that has been written whole is read at the same path, and settings
that have been saved are loaded, whatever the file held before.

Key definitions: `Disk.Rooted`, `Disk.Holds`.
Key theorems: `Disk.Rooted.resolve_made`, `Disk.Rooted.makeFolders`,
`Disk.Rooted.writeFile_holds`, `Settings.load_saved`, `records_round_trip`.
-/
import FileReceiver.Proofs.Containment
import FileReceiver.Proofs.Wire
import FileReceiver.Settings.Store

namespace FileReceiver
namespace Disk

variable {d d' : Disk} {p : Path} {place : Place} {lastName : LastName}

/-- The working folder is a folder, and everything stands in a folder. -/
structure Rooted (d : Disk) : Prop where
  working : d.get? d.workingFolder = some .folder
  above : ∀ loc e, d.get? loc = some e → d.get? loc.dropLast = some .folder

/-! ### Where paths lead -/

theorem get?_startOf {folder : Location} (text : String) (h : d.get? folder = some .folder) :
    d.get? (startOf text folder) = some .folder := by
  unfold startOf
  split
  · rfl
  · exact h

/-- A walk that starts in a folder ends in a folder. -/
theorem Rooted.walkWith_folder (h : d.Rooted)
    {onLink : Bool → List Component → Location → Except SystemError Place}
    (hon : ∀ w steps folder place, d.get? folder = some .folder →
      onLink w steps folder = .ok place → d.get? place.folder = some .folder)
    (w : Bool) (steps : List Component) (folder : Location) (place : Place)
    (hfolder : d.get? folder = some .folder)
    (hw : d.walkWith lastName onLink w steps folder = .ok place) :
    d.get? place.folder = some .folder := by
  fun_induction walkWith d lastName onLink w steps folder with
  | case1 folder | case2 | case6 | case7 =>
    cases hw
    exact hfolder
  | case3 | case4 | case11 | case14 | case15 => cases hw
  | case5 name folder hkept hmade target hlook =>
    exact hon _ _ _ _ (get?_startOf target hfolder) hw
  | case8 rest folder hrest ih => exact ih rfl hw
  | case9 rest folder hrest ih => exact ih hfolder hw
  | case10 rest folder hrest ih => exact ih (h.above _ _ hfolder) hw
  | case12 name rest folder hrest target hlook =>
    exact hon _ _ _ _ (get?_startOf target hfolder) hw
  | case13 name rest folder hrest hlook ih => exact ih (lookUp_ok hlook).2 hw

/-- A path that can be followed leads where its steps lead from its start. -/
theorem resolve_ok_iff : d.resolve lastName p = .ok place ↔
    (p.text.toList.contains '\x00' = false ∧ p.text ≠ "" ∧ p.text.utf8ByteSize ≤ pathLimit) ∧
      d.walk lastName linkLimit (endsInSeparator p.text) (stepsOf p.text)
        (startOf p.text d.workingFolder) = .ok place := by
  constructor
  · intro hr
    unfold resolve at hr
    split at hr
    · cases hr
    rename_i hzero
    split at hr
    · cases hr
    rename_i hempty
    split at hr
    · cases hr
    rename_i hlong
    exact ⟨⟨Bool.eq_false_iff.mpr hzero, hempty, Nat.le_of_not_lt hlong⟩, hr⟩
  · rintro ⟨⟨hzero, hempty, hlong⟩, hwalk⟩
    rw [resolve, hzero, if_neg Bool.false_ne_true, if_neg hempty, if_neg (Nat.not_lt.mpr hlong),
      hwalk]

/-- A path leads to a step from a folder. -/
theorem Rooted.resolve_folder (h : d.Rooted) (hr : d.resolve lastName p = .ok place) :
    d.get? place.folder = some .folder := by
  have hwalk : ∀ links w steps folder place, d.get? folder = some .folder →
      d.walk lastName links w steps folder = .ok place → d.get? place.folder = some .folder := by
    intro links
    induction links with
    | zero => exact h.walkWith_folder fun _ _ _ _ _ hw => by cases hw
    | succ links ih => exact h.walkWith_folder ih
  exact hwalk _ _ _ _ _ (get?_startOf p.text h.working) (resolve_ok_iff.mp hr).2

/-- The last step leads to a folder, or is a name. -/
theorem Rooted.location_folder (h : d.Rooted) (hr : d.resolve lastName p = .ok place) :
    d.get? place.location = some .folder ∨ ∃ name, place.last = .name name := by
  have hfolder := h.resolve_folder hr
  unfold Place.location
  cases place.last with
  | root => exact Or.inl rfl
  | here => exact Or.inl hfolder
  | up => exact Or.inl (h.above _ _ hfolder)
  | name name => exact Or.inr ⟨name, rfl⟩

/-- A walk to make a file ends where any other ends that follows links; if it ends at a name, then
not one with a separator behind it. -/
theorem walkWith_made {onLink onLink' : Bool → List Component → Location → Except SystemError Place}
    (hon : ∀ w steps folder place, onLink w steps folder = .ok place →
      onLink' w steps folder = .ok place ∧
        ∀ name, place.last = .name name → place.wantsFolder = false)
    (w : Bool) (steps : List Component) (folder : Location) (place : Place)
    (hw : d.walkWith .made onLink w steps folder = .ok place) :
    d.walkWith .followed onLink' w steps folder = .ok place ∧
      ∀ name, place.last = .name name → place.wantsFolder = false := by
  fun_induction walkWith d .made onLink w steps folder with
  | case1 folder =>
    cases hw
    exact ⟨rfl, fun _ hname => by cases hname⟩
  | case2 name folder hkept => cases hkept
  | case3 | case4 | case11 | case14 | case15 => cases hw
  | case5 name folder hkept hmade target hlook =>
    rw [walkWith, if_neg (by decide), if_neg (by simp), hlook]
    exact hon _ _ _ _ hw
  | case6 name folder hkept hmade there hlink hlook =>
    cases hw
    refine ⟨?_, fun _ _ => by simpa using hmade⟩
    rw [walkWith, if_neg (by decide), if_neg (by simp), hlook]
    split
    · rename_i heq
      cases heq
    · rename_i target heq
      cases heq
      exact absurd rfl (hlink target)
    · rfl
  | case7 last folder hname =>
    cases hw
    refine ⟨by rw [walkWith]; exact hname, fun name hlast => absurd hlast (hname name)⟩
  | case8 rest folder hrest ih | case9 rest folder hrest ih | case10 rest folder hrest ih =>
    rw [walkWith]
    · exact ih hw
    · exact hrest
  | case12 name rest folder hrest target hlook =>
    rw [walkWith, hlook]
    · exact hon _ _ _ _ hw
    · exact hrest
  | case13 name rest folder hrest hlook ih =>
    rw [walkWith, hlook]
    · exact ih hw
    · exact hrest

/-- **Where a file is made.** A path that a call follows to make a file leads to the same place for
a call that reads; a separator stands behind it only if it leads to a folder. -/
theorem Rooted.resolve_made (h : d.Rooted) (hr : d.resolve .made p = .ok place) :
    d.resolve .followed p = .ok place ∧
      (d.get? place.location = some .folder ∨ place.wantsFolder = false) := by
  have hwalk : ∀ links w steps folder place, d.walk .made links w steps folder = .ok place →
      d.walk .followed links w steps folder = .ok place ∧
        ∀ name, place.last = .name name → place.wantsFolder = false := by
    intro links
    induction links with
    | zero => exact walkWith_made fun _ _ _ _ hw => by cases hw
    | succ links ih => exact walkWith_made ih
  obtain ⟨hfollowable, hmade⟩ := resolve_ok_iff.mp hr
  obtain ⟨hfollowed, hend⟩ := hwalk _ _ _ _ _ hmade
  refine ⟨resolve_ok_iff.mpr ⟨hfollowable, hfollowed⟩, (h.location_folder hr).imp_right ?_⟩
  rintro ⟨name, hname⟩
  exact hend name hname

/-! ### Making folders -/

theorem Rooted.later (h : d.Rooted) : d.later.Rooted := ⟨h.working, h.above⟩

theorem rooted_empty : ({ entries := ∅ } : Disk).Rooted := by
  refine ⟨rfl, fun loc e he => ?_⟩
  unfold get? at he
  split at he
  · rename_i hroot
    rw [hroot]
    rfl
  · simp at he

/-- Something is put into a folder, and not in place of one. -/
theorem Rooted.put {loc : Location} {e : Entry} (h : d.Rooted)
    (hparent : d.get? loc.dropLast = some .folder) (hfree : d.get? loc ≠ some .folder) :
    (d.put loc e).Rooted := by
  have hkept : ∀ place, d.get? place = some .folder → (d.put loc e).get? place = some .folder := by
    intro place hfolder
    rw [get?_put]
    split
    · rfl
    · have hne : loc ≠ place := fun hsame => hfree (by rw [hsame, hfolder])
      rw [if_neg hne, hfolder]
  refine ⟨hkept _ h.working, fun place there hthere => ?_⟩
  rw [get?_put] at hthere
  split at hthere
  · rename_i hroot
    rw [hroot]
    rfl
  split at hthere
  · rename_i hsame
    exact hsame ▸ hkept _ hparent
  · exact hkept _ (h.above _ _ hthere)

theorem Rooted.makeFolder (h : d.Rooted) (p : Path) : (d.makeFolder p).2.Rooted := by
  rcases d.makeFolder_makes p with hmade | ⟨place, hr, hnone, hmade⟩
  · rw [hmade]
    exact h.later
  have hfree : d.get? place.location ≠ some .folder := by simp [hnone]
  obtain ⟨name, hname⟩ := (h.location_folder hr).resolve_left hfree
  have hparent : place.location.dropLast = place.folder := by
    rw [Place.location, hname]
    exact List.dropLast_concat
  rw [hmade]
  refine h.later.put ?_ hfree
  rw [hparent]
  exact h.resolve_folder hr

theorem make_rooted {A : Type} {c : Call A} {files : List Location}
    (hc : c.OnFolders (fun _ => True) files) (h : d.Rooted) : (c.make d).2.Rooted := by
  cases c with
  | probe p =>
    have hlater : (Call.make d (.probe p)).2 = d.later := d.probe_later p
    rw [hlater]
    exact h.later
  | makeFolder p => exact h.makeFolder p
  | isFolder p => exact h
  | openFresh | openEnd | write | setLength | read | remove | rename => exact hc.elim

theorem Rooted.makeFolders (h : d.Rooted) (p : Path) : (d.makeFolders p).2.Rooted := by
  have hrun : ∀ {α : Type} (routine : Routine α) (files : List Location) (d : Disk),
      routine.Makes (Call.OnFolders fun _ => True) files → d.Rooted → (routine.run d).2.Rooted := by
    intro α routine
    induction routine with
    | done a => exact fun _ _ _ h => h
    | call c next ih =>
      exact fun files d hmakes h => ih _ _ _ (hmakes.2 _) (make_rooted hmakes.1 h)
  rw [Disk.makeFolders, ← Receiver.run_makingFolders]
  exact hrun _ [] d (Receiver.makes_makingFolders _ fun _ _ => trivial) h

/-! ### Writing and reading a whole file -/

theorem attempt_of_draw {α : Type} (h : d.draw.1 = none) (call : Disk → Outcome α) :
    d.attempt call = call d.later := by
  unfold attempt
  rcases d.draw_cases with ⟨fault, hd, -⟩ | hd
  · rw [hd] at h
    cases h
  · rw [hd]

theorem write_fullDevice {loc : Location} {bytes : ByteArray} (hne : bytes.isEmpty = false)
    (hdevice : d.get? loc = some .fullDevice) : (d.write loc bytes).1 ≠ .ok () := by
  unfold write
  rw [hne, if_neg Bool.false_ne_true]
  rcases d.draw_cases with ⟨fault, hd, -⟩ | hd
  · rw [hd]
    exact fun herror => by cases herror
  · rw [hd]
    simp [hdevice]

/-- The path leads to a file with the given content. -/
def Holds (d : Disk) (p : Path) (content : ByteArray) : Prop :=
  ∃ place mode, d.resolve .followed p = .ok place ∧ place.wantsFolder = false ∧
    d.get? place.location = some (.file mode content)

/-- **What has been written stands at the path**, whatever stood there before. -/
theorem Rooted.writeFile_holds (h : d.Rooted) {content : ByteArray} (hne : content.isEmpty = false)
    (hw : d.writeFile p content = (.ok (), d')) : d'.Holds p content := by
  unfold writeFile at hw
  rcases hopen : d.openFresh p commonMode with ⟨res, opened⟩
  rw [hopen] at hw
  rcases openFresh_cases hopen with ⟨e, rfl, -⟩ | ⟨place, hr, rfl, hedit, hthere⟩
  · cases hw
  dsimp only at hw
  rcases hthere with ⟨mode, hfile⟩ | ⟨-, hdevice⟩
  · obtain ⟨hedit', ⟨-, hwritten⟩ | ⟨e, n, herror, -⟩⟩ := write_file hfile hw
    · obtain ⟨hfollowed, hend⟩ := h.resolve_made hr
      have hfolder : d.get? place.location ≠ some .folder := fun hfolder => by
        rw [hedit.folder.mpr hfolder] at hfile
        cases hfile
      have hreads := (hedit.trans hedit').resolve.mpr hfollowed
      refine ⟨place, mode, hreads, hend.resolve_left hfolder, ?_⟩
      rw [hwritten, ByteArray.empty_append]
    · cases herror
  · exact absurd (congrArg Prod.fst hw) (write_fullDevice hne hdevice)

/-- A file of text is read, if the call draws no fault. -/
theorem Holds.readText {text : String} (h : d.Holds p text.toUTF8) (hdraw : d.draw.1 = none) :
    (d.readText p).1 = .ok text := by
  obtain ⟨place, mode, hr, hend, hfile⟩ := h
  have hread : d.read p = (.ok text.toUTF8, d.later) := by
    rw [read, attempt_of_draw hdraw, resolve_later.mpr hr]
    simp [hfile, hend]
  have htext : String.fromUTF8? text.toUTF8 = some text := by
    rw [String.toUTF8_eq_toByteArray, ← Text.toByteArray_bytes, Text.fromUTF8?_bytes]
  rw [Disk.readText, hread]
  dsimp only
  rw [htext]

end Disk

/-! ### Settings -/

namespace Settings

open Json

theorem isEmpty_document (s : Settings) : s.document.toUTF8.isEmpty = false := by
  refine Bool.eq_false_iff.mpr fun hempty => ?_
  have hbytes : s.document.toUTF8 = .empty :=
    ByteArray.size_eq_zero_iff.mp (beq_iff_eq.mp hempty)
  have hnone : s.document = "" := Text.bytes_eq_nil.mp (by rw [hbytes, Text.toList_eq_data]; rfl)
  have hchars : s.document.toList = (Layout.pretty 0).object (schema.written s) := by
    rw [document, Value.pretty, String.toList_ofList,
      Schema.prettyChars_written isLawful (by simp [schema])]
  rw [hnone, Layout.object] at hchars
  cases hchars

/-- The folders that saving makes leave the disk rooted. -/
theorem makeParent_rooted {d : Disk} (h : d.Rooted) (p : Path) : (makeParent p d).2.Rooted := by
  unfold makeParent
  split
  · exact h
  · exact h.makeFolders _

/-- A file of text is loaded as what its text is read as. -/
theorem load_of_readText {p : Path} {d : Disk} {text : String} {s : Settings}
    (hread : (d.readText p).1 = .ok text) (hs : schema.ofText text.toUTF8.toList = .ok s) :
    (load p d).1 = .ok s := by
  unfold load
  rcases htext : d.readText p with ⟨res, d'⟩
  rw [htext] at hread
  obtain rfl : res = .ok text := hread
  dsimp only
  rw [hs]

/-- **Settings that are saved are loaded**, whatever the file held before, if the call that reads
them draws no fault. -/
theorem load_saved {s : Settings} {p : Path} {d d' : Disk} (h : d.Rooted)
    (hs : s.save p d = (.ok (), d')) (hdraw : d'.draw.1 = none) : (load p d').1 = .ok s := by
  have hrooted := makeParent_rooted h p
  rcases hparent : makeParent p d with ⟨_ | ⟨⟨⟩⟩, made⟩
  · rw [save, hparent] at hs
    cases hs
  rw [hparent] at hrooted
  have hwrite : made.writeFile p s.document.toUTF8 = (.ok (), d') := by
    rw [save, hparent] at hs
    dsimp only at hs
    rcases hw : made.writeFile p s.document.toUTF8 with ⟨_ | ⟨⟨⟩⟩, written⟩
    · rw [hw] at hs
      cases hs
    · rw [hw] at hs
      cases hs
      rfl
  exact load_of_readText ((hrooted.writeFile_holds s.isEmpty_document hwrite).readText hdraw)
    (roundTrips.pretty s)

end Settings

/-- **Records come back.** Devices, offers and settings are read from their texts as what they were,
also from texts that are first read as values, from announcements and from the bodies of requests;
and settings that are saved are loaded, if the call that reads them draws no fault. -/
theorem records_round_trip :
    Device.schema.RoundTrips ∧ FileOffer.schema.RoundTrips ∧ Settings.schema.RoundTrips ∧
      (∀ d text, Discovery.datagram? d = some text →
        Device.schema.ofText text.toUTF8.toList = .ok d) ∧
      (∀ pin d, pin ≠ "" → Http.readConnect (Http.connectBody pin d) = .ok (pin, d)) ∧
      (∀ sessionId manifest, sessionId ≠ "" → (manifest.map (·.1)).Nodup →
        ∃ manifest', Http.readSend (Http.sendBody sessionId manifest) = .ok (sessionId, manifest') ∧
          manifest'.Perm manifest) ∧
      ∀ (s : Settings) (p : Path) (d d' : Disk), d.Rooted → s.save p d = (.ok (), d') →
        d'.draw.1 = none → (Settings.load p d').1 = .ok s :=
  ⟨Device.roundTrips, FileOffer.roundTrips, Settings.roundTrips,
    fun _ _ htext => Discovery.datagram_back htext,
    fun _ d hpin => Http.readConnect_back hpin d,
    fun _ _ hsession hids => Http.readSend_back hsession hids,
    fun _ _ _ _ hrooted hsave hdraw => Settings.load_saved hrooted hsave hdraw⟩

/-- Settings with large numbers and with characters that are escaped, saved over a file that held
something else, are loaded. -/
theorem overwritten_settings_loaded :
    let s : Settings := { pin := "\"1\\\n", maxBody := 18446744073709551615 }
    let d := Disk.put { entries := ∅ } ["c"] (.file Disk.commonMode "old".toUTF8)
    (Settings.load ⟨"c"⟩ (s.save ⟨"c"⟩ d).2).1 = .ok s := by
  intro s d
  have hrooted : d.Rooted := Disk.Rooted.put Disk.rooted_empty rfl nofun
  have hrun : ((s.save ⟨"c"⟩ d).1.toOption.isSome && (s.save ⟨"c"⟩ d).2.draw.1.isNone) = true := by
    decide +kernel
  obtain ⟨hsaved, hquiet⟩ := Bool.and_eq_true_iff.mp hrun
  have hsave : s.save ⟨"c"⟩ d = (.ok (), (s.save ⟨"c"⟩ d).2) := by
    rcases h : s.save ⟨"c"⟩ d with ⟨_ | ⟨⟨⟩⟩, written⟩
    · rw [h] at hsaved
      cases hsaved
    · rfl
  have hdraw := Option.isNone_iff_eq_none.mp hquiet
  exact records_round_trip.2.2.2.2.2.2 s ⟨"c"⟩ d _ hrooted hsave hdraw

end FileReceiver
