/-
# Stopping

A receiver that is stopped waits for its announcements to end, an interval
and a second at most. The interval is the one that its settings name, or one
second if they name none (`Settings.toNat_interval`), and nothing on the way
from the command line or the file to the sum bounds it from above
(`Settings.IntervalTaken`). So the sum fits for all intervals but the longest
one that 64 bits hold, with which the receiver starts and cannot be stopped
in good order (`stopping_overflows_iff`).

Key definitions: `Settings.IntervalTaken`.
Key theorems: `Discovery.waitingBound?_eq_some_iff`, `Running.stop_eq_none_iff`,
`Arguments.parse_interval`, `stopping_overflows_iff`.
-/
import FileReceiver.Proofs.Announcing
import FileReceiver.Proofs.Precedence
import FileReceiver.Proofs.Sizes

namespace FileReceiver

/-- The longest interval that 64 bits hold. -/
def longestInterval : UInt64 := 18446744073709551615

/-! ### The bound -/

namespace Discovery

variable {interval bound : UInt64}

theorem waitingBound?_eq_some_iff :
    waitingBound? interval = some bound ↔ bound.toNat = interval.toNat + 1 := by
  have hbound := bound.toNat_lt
  unfold waitingBound?
  split
  · rename_i hfits
    have hsum : (interval + 1).toNat = interval.toNat + 1 := by
      rw [UInt64.toNat_add]
      exact Nat.mod_eq_of_lt hfits
    rw [Option.some.injEq, ← UInt64.toNat_inj, hsum, eq_comm]
  · rename_i hlong
    refine ⟨nofun, fun hsum => absurd ?_ hlong⟩
    rw [← hsum]
    exact hbound

theorem waitingBound?_eq_none_iff : waitingBound? interval = none ↔ interval = longestInterval := by
  have hinterval := interval.toNat_lt
  rw [← UInt64.toNat_inj]
  change _ ↔ interval.toNat = 18446744073709551615
  unfold waitingBound?
  split
  · rename_i hfits
    have hfits : interval.toNat + 1 < 18446744073709551616 := hfits
    refine ⟨nofun, fun hlongest => ?_⟩
    omega
  · rename_i hlong
    have hlong : ¬ interval.toNat + 1 < 18446744073709551616 := hlong
    exact ⟨fun _ => by omega, fun _ => rfl⟩

end Discovery

/-- The interval is held to a second at its short end, and to nothing at its long one. -/
theorem Settings.toNat_interval (s : Settings) :
    s.interval.toNat = max s.broadcastInterval.toNat 1 :=
  UInt64.toNat_max _ _

variable {m : Machine} {s : Settings} {t : TlsSettings} {d : Disk} {r : Running}

theorem start_interval (h : (start m s t d).1 = .ok r) : r.interval = s.interval := by
  unfold start at h
  split at h
  · cases h
  dsimp only at h
  split at h
  · cases h
  · rw [← Except.ok.inj h]

/-- The bound fits unless the settings name the longest interval. -/
theorem Running.stop_eq_none_iff (h : (start m s t d).1 = .ok r) :
    r.stop = none ↔ s.broadcastInterval = longestInterval := by
  rw [stop, start_interval h, Discovery.waitingBound?_eq_none_iff, ← UInt64.toNat_inj,
    ← UInt64.toNat_inj, s.toNat_interval]
  change max _ 1 = 18446744073709551615 ↔ _ = 18446744073709551615
  omega

theorem Running.stop_eq_some_iff (h : (start m s t d).1 = .ok r) {bound : UInt64} :
    r.stop = some bound ↔ bound.toNat = max s.broadcastInterval.toNat 1 + 1 := by
  rw [stop, start_interval h, Discovery.waitingBound?_eq_some_iff, s.toNat_interval]

/-! ### Where the interval comes from -/

namespace Arguments

variable {a : Arguments} {environment : Environment} {pin : String}

/-- The digits of a count of 64 bits are read as the count. -/
theorem readCount_digits (v : UInt64) : Setting.readCount (toString v.toNat) = .ok v := by
  have hdigits : (toString v.toNat).toList = [] ++ Nat.toDigits 10 v.toNat := by
    rw [Nat.toString_eq_repr, Nat.toList_repr, List.nil_append]
  have hread : Text.readCount? (toString v.toNat).toList = some v.toNat := by
    rw [hdigits, Text.readCount?_digits (by simp [Text.IsPlus]) Nat.toDigits_ne_nil fun c hc =>
      Nat.isDigit_of_mem_toDigits (by decide) (by decide) hc, Nat.ofDigitChars_ten_toDigits]
  rw [Setting.readCount, hread]
  dsimp only
  rw [if_pos v.toNat_lt]
  exact congrArg Except.ok (UInt64.ofNat_toNat (x := v))

/-- A word that does not start with a dash is no option. -/
theorem word_plain {r : Reading} (hescaped : r.escaped = false) {w : String} {c : Char}
    {rest : List Char} (hw : w.toList = c :: rest) (hc : c ≠ '-') : r.word w = r.plain w := by
  rw [Reading.word, hescaped, if_neg Bool.false_ne_true, hw]
  split
  all_goals first | rfl | (rename_i heq; exact absurd (List.cons.inj heq).1 hc)

/-- Every count of 64 bits can be asked for on the command line. -/
theorem parse_interval (v : UInt64) :
    parse ["--bcast-interval", toString v.toNat] [] = .ok { broadcastInterval := some v } := by
  have hdigits : (toString v.toNat).toList = Nat.toDigits 10 v.toNat := by
    rw [Nat.toString_eq_repr, Nat.toList_repr]
  have hne : Nat.toDigits 10 v.toNat ≠ [] := Nat.toDigits_ne_nil
  obtain ⟨c, rest, hfirst⟩ := List.exists_cons_of_ne_nil hne
  have hdash : c ≠ '-' := by
    rintro rfl
    have hmem : '-' ∈ Nat.toDigits 10 v.toNat := by
      rw [hfirst]
      exact List.mem_cons_self
    exact absurd (Nat.isDigit_of_mem_toDigits (by decide) (by decide) hmem) (by decide)
  let named : Reading := { pending := some (.broadcastInterval, none) }
  let given : Reading := { pending := some (.broadcastInterval, some (toString v.toNat)) }
  let settled : Reading :=
    { arguments := { broadcastInterval := some v }, given := [.broadcastInterval] }
  have hoption : Reading.word {} "--bcast-interval" = .ok named := rfl
  have hvalue : named.word (toString v.toNat) = .ok given :=
    word_plain rfl (hdigits.trans hfirst) hdash
  have hsettle : given.settle = .ok settled := by
    change (do return { settled with arguments := ← Setting.read .broadcastInterval _ {} }) = _
    rw [Setting.read, readCount_digits]
    rfl
  have hvariables : Setting.all.foldlM (Reading.fromVariable []) settled = .ok settled := rfl
  have hwords : ["--bcast-interval", toString v.toNat].foldlM Reading.word {} = .ok given := by
    rw [List.foldlM_cons, hoption]
    change [toString v.toNat].foldlM Reading.word named = _
    rw [List.foldlM_cons, hvalue]
    rfl
  rw [parse, hwords]
  change (do let r ← given.settle; _) = _
  rw [hsettle]
  change (do let r ← Setting.all.foldlM (Reading.fromVariable []) settled; _) = _
  rw [hvariables]
  rfl

/-- What an option names prevails over the file, and what the file names stays without one. -/
theorem settings_interval {d : Disk} {home : Option Path} {ground s : Settings}
    (hground : (a.ground environment d home).1 = .ok ground)
    (h : (a.settings environment pin d home).1 = .ok s) :
    s.broadcastInterval = a.broadcastInterval.getD ground.broadcastInterval := by
  unfold settings at h
  rcases heq : a.ground environment d home with ⟨res, d'⟩
  rw [heq] at h hground
  obtain rfl : res = .ok ground := hground
  dsimp only at h
  split at h
  · cases h
  · cases h
    rfl

end Arguments

/-- An interval comes from the command line or a file into the settings as it is. -/
structure Settings.IntervalTaken (v : UInt64) : Prop where
  option : Arguments.parse ["--bcast-interval", toString v.toNat] [] =
    .ok { broadcastInterval := some v }
  file : schema.ofText ({ broadcastInterval := v } : Settings).document.toUTF8.toList =
    .ok { broadcastInterval := v }
  kept : ∀ (a : Arguments) (environment : Environment) (pin : String) (d : Disk)
    (home : Option Path) (ground s : Settings), (a.ground environment d home).1 = .ok ground →
      (a.settings environment pin d home).1 = .ok s →
      a.broadcastInterval.getD ground.broadcastInterval = v → s.broadcastInterval = v

/-- **Every receiver can be stopped but the one with the longest interval.** Every interval of 64
bits can be asked for, by the option and by a file, and is taken as it is. Whatever else a receiver
is started with: if it is asked to announce itself every `v` seconds, stopping it waits for `v`
seconds and one more, or two if `v` is zero. Only if `v` is the longest interval there is, the sum
does not fit, and stopping fails. -/
theorem stopping_overflows_iff (v : UInt64) :
    Settings.IntervalTaken v ∧
    ∀ (m : Machine) (s : Settings) (t : TlsSettings) (d : Disk) (r : Running),
      s.broadcastInterval = v → (start m s t d).1 = .ok r →
        (r.stop = none ↔ v = longestInterval) ∧
        ∀ bound, r.stop = some bound ↔ bound.toNat = max v.toNat 1 + 1 := by
  refine ⟨⟨Arguments.parse_interval v, Settings.roundTrips.pretty _, ?_⟩, ?_⟩
  · intro a environment pin d home ground s hground hs hv
    rw [Arguments.settings_interval hground hs, hv]
  · rintro m s t d r rfl hstart
    exact ⟨Running.stop_eq_none_iff hstart, fun bound => Running.stop_eq_some_iff hstart⟩

/-- By the default settings, and with the longest interval, a receiver starts on an empty disk; the
first is stopped within four seconds, and the second panics when it is stopped. -/
theorem longest_interval_overflows :
    (∃ r, (run freeMachine {} { entries := ∅ }).1 = .ok r ∧ r.stop = some 4) ∧
    ∃ r, (run freeMachine { broadcastInterval := longestInterval } { entries := ∅ }).1 = .ok r ∧
      r.stop = none := by
  obtain ⟨r, hr⟩ := freeMachine_starts (s := {}) (t := TlsSettings.ofSettings {})
    (d := { entries := ∅ }) (by decide +kernel)
  obtain ⟨r', hr'⟩ := freeMachine_starts (s := { broadcastInterval := longestInterval })
    (t := TlsSettings.ofSettings { broadcastInterval := longestInterval })
    (d := { entries := ∅ }) (by decide +kernel)
  exact ⟨⟨r, hr, (Running.stop_eq_some_iff hr).mpr rfl⟩,
    ⟨r', hr', (Running.stop_eq_none_iff hr').mpr rfl⟩⟩

end FileReceiver
