import DeepcV2x.Bridge.Response
import Mathlib.Data.List.TakeWhile
import Mathlib.Tactic.Linarith

/-!
# Arbitrary controller output

A call on an arbitrary response text is fail-safe when it returns, stays within
the power limits, and keeps the previous power unless the text itself contains
a true success flag and an in-range power.  The reader is fail-safe exactly on
the texts whose number runs `stod` accepts and whose accepted fields are the
text's own.
-/

namespace DeepcV2x.Bridge

open DeepcV2x.Foundation.Strings DeepcV2x.Foundation.Decimal

/-! ## What a text contains -/

/-- White space of the C locale only. -/
def IsBlank (gap : Text) : Prop := ∀ c ∈ gap, isSpace c = true

/-- The text has the quoted key, a colon and then `value`, with nothing but white space
between them. -/
def HasField (content key value : Text) : Prop :=
  ∃ before gap space after,
    content = before ++ quoted key ++ gap ++ [':'] ++ space ++ value ++ after ∧
      IsBlank gap ∧ IsBlank space

/-- The text contains a true success flag. -/
def HasSuccessTrue (content : Text) : Prop := HasField content successKey "true".toList

/-- The text contains a number within the limits for the transmit power. -/
def HasPowerInRange (limits : ControlLimits) (content : Text) : Prop :=
  ∃ run power, HasField content powerKey run ∧ (∀ c ∈ run, isNumberChar c = true) ∧
    stod run = .ok power ∧ limits.InRange power

theorem isBlank_takeWhile (text : Text) : IsBlank (text.takeWhile isSpace) :=
  fun _ hmem => List.mem_takeWhile_imp hmem

/-- A located field is the text's own when only white space separates the colon from the key. -/
theorem hasField_of_afterColon {content key rest tail value after gap : Text}
    (hkey : afterFirst (quoted key) content = some rest) (hgap : rest = gap ++ [':'] ++ tail)
    (hblank : IsBlank gap) (hvalue : skipSpaces tail = value ++ after) :
    HasField content key value := by
  obtain ⟨before, hsplit⟩ := afterFirst_some hkey
  refine ⟨before, gap, tail.takeWhile isSpace, after, ?_, hblank, isBlank_takeWhile tail⟩
  have htail : tail = tail.takeWhile isSpace ++ (value ++ after) := by
    rw [← hvalue]
    exact List.takeWhile_append_dropWhile.symm
  calc content = before ++ quoted key ++ rest := hsplit
    _ = before ++ quoted key ++ (gap ++ [':'] ++ (tail.takeWhile isSpace ++ (value ++ after))) := by
        rw [hgap, ← htail]
    _ = before ++ quoted key ++ gap ++ [':'] ++ tail.takeWhile isSpace ++ value ++ after := by
        simp only [List.append_assoc]

/-- The colon the reader finds for a key follows the key, white space aside. -/
def ColonAdjacent (content key : Text) : Prop :=
  ∀ rest tail, afterFirst (quoted key) content = some rest → afterFirst [':'] rest = some tail →
    ∃ gap, IsBlank gap ∧ rest = gap ++ [':'] ++ tail

/-- A key is followed at once by its colon when the text after it starts with one. -/
theorem colonAdjacent_of_colon {content key tail : Text}
    (hkey : afterFirst (quoted key) content = some (':' :: tail)) : ColonAdjacent content key := by
  intro rest other hrest hother
  rw [hkey] at hrest
  obtain rfl := Option.some.inj hrest
  rw [show ':' :: tail = [':'] ++ tail from rfl, afterFirst_of_prefixed] at hother
  obtain rfl := Option.some.inj hother
  exact ⟨[], fun _ hmem => absurd hmem List.not_mem_nil, rfl⟩

theorem afterColon_some {content key tail : Text} (hfound : afterColon content key = some tail) :
    ∃ rest, afterFirst (quoted key) content = some rest ∧ afterFirst [':'] rest = some tail := by
  unfold afterColon at hfound
  cases hkey : afterFirst (quoted key) content with
  | none =>
      rw [hkey] at hfound
      cases hfound
  | some rest =>
      rw [hkey] at hfound
      exact ⟨rest, rfl, hfound⟩

/-- A flag read behind an adjacent colon is a field of the text. -/
theorem hasSuccessTrue_of_adjacent {content : Text} (adjacent : ColonAdjacent content successKey)
    (hflag : extractJsonBool content successKey = some true) : HasSuccessTrue content := by
  unfold extractJsonBool at hflag
  cases hfound : afterColon content successKey with
  | none =>
      rw [hfound] at hflag
      cases hflag
  | some tail =>
      rw [hfound] at hflag
      dsimp only at hflag
      split at hflag
      next hprefixed =>
        obtain ⟨after, hvalue⟩ := List.isPrefixOf_iff_prefix.mp hprefixed
        obtain ⟨rest, hkey, hcolon⟩ := afterColon_some hfound
        obtain ⟨gap, hblank, hgap⟩ := adjacent rest tail hkey hcolon
        exact hasField_of_afterColon hkey hgap hblank hvalue.symm
      next =>
        split at hflag <;> cases hflag

/-- A power read behind an adjacent colon is a field of the text. -/
theorem hasPowerInRange_of_adjacent {limits : ControlLimits} {content : Text} {power : ℚ}
    (adjacent : ColonAdjacent content powerKey)
    (hpower : extractJsonNumber stod content powerKey = .ok (some power))
    (hrange : limits.InRange power) : HasPowerInRange limits content := by
  simp only [extractJsonNumber, numberRun] at hpower
  cases hfound : afterColon content powerKey with
  | none =>
      rw [hfound] at hpower
      cases hpower
  | some tail =>
      simp only [hfound] at hpower
      split at hpower
      · cases hpower
      next run hrun =>
        split at hrun
        · cases hrun
        next =>
          obtain rfl := Option.some.inj hrun
          obtain ⟨rest, hkey, hcolon⟩ := afterColon_some hfound
          obtain ⟨gap, hblank, hgap⟩ := adjacent rest tail hkey hcolon
          refine ⟨(skipSpaces tail).takeWhile isNumberChar, power,
            hasField_of_afterColon hkey hgap hblank
              (@List.takeWhile_append_dropWhile Char isNumberChar (skipSpaces tail)).symm,
            ?_, ?_, hrange⟩
          · intro c hmem
            exact List.mem_takeWhile_imp hmem
          · split at hpower
            · cases hpower
            next value hvalue =>
              rw [hvalue, Option.some.inj (Except.ok.inj hpower)]

/-! ## The fail-safe property -/

/-- One call that returns, in the limits, and holds the power unless the text says otherwise. -/
def FailSafe (limits : ControlLimits) (timeS : ℚ) (previousU : InputCommand) (content : Text) :
    Prop :=
  ∃ result, requestControl stod limits timeS previousU content = .ok result ∧
    limits.InRange result.command.txPowerDbm ∧
    (¬ (HasSuccessTrue content ∧ HasPowerInRange limits content) →
      result.command.txPowerDbm = previousU.txPowerDbm)

/-- `stod` accepts every run of number characters the reader hands to it. -/
def RunsAccepted (content : Text) : Prop :=
  ∀ key ∈ numberKeys, RunAccepted stod content key

/-- A flag and a new power the reader would apply are fields of the text, not the value after
some other key's colon. -/
def FieldsOwned (limits : ControlLimits) (previousPower : ℚ) (content : Text) : Prop :=
  ∀ power, extractJsonBool content successKey = some true →
    extractJsonNumber stod content powerKey = .ok (some power) → limits.InRange power →
    power ≠ previousPower → HasSuccessTrue content ∧ HasPowerInRange limits content

theorem fieldsOwned_of_adjacent {limits : ControlLimits} {previousPower : ℚ} {content : Text}
    (success : ColonAdjacent content successKey) (power : ColonAdjacent content powerKey) :
    FieldsOwned limits previousPower content := by
  intro value hflag hpower hrange _
  exact ⟨hasSuccessTrue_of_adjacent success hflag, hasPowerInRange_of_adjacent power hpower hrange⟩

/-- The accepted power, in terms of the extractors. -/
theorem acceptedPower_eq_some_iff {limits : ControlLimits} {content : Text}
    {parsed : ParsedResponse} (hparsed : parseResponse stod content = .ok parsed) (power : ℚ) :
    acceptedPower limits parsed = some power ↔
      extractJsonBool content successKey = some true ∧
        extractJsonNumber stod content powerKey = .ok (some power) ∧ limits.InRange power := by
  obtain ⟨hpower, hsuccess⟩ := parseResponse_fields hparsed
  have hflag : parsed.success = true ↔ extractJsonBool content successKey = some true := by
    rw [hsuccess]
    cases extractJsonBool content successKey with
    | none => simp
    | some flag => simp
  rw [hpower, ← hflag]
  unfold acceptedPower
  cases hvalue : parsed.power with
  | none => simp
  | some value =>
      by_cases haccepted : parsed.success = true ∧ limits.InRange value
      · simp only [if_pos haccepted]
        constructor
        · rintro h
          obtain rfl := Option.some.inj h
          exact ⟨haccepted.1, rfl, haccepted.2⟩
        · rintro ⟨-, h, -⟩
          exact Except.ok.inj h
      · simp only [if_neg haccepted]
        constructor
        · intro h
          cases h
        · rintro ⟨hsuccess, h, hrange⟩
          obtain rfl := Option.some.inj (Except.ok.inj h)
          exact absurd ⟨hsuccess, hrange⟩ haccepted

/-- The exact condition for one call from an in-range power. -/
theorem failSafe_iff {limits : ControlLimits} (timeS : ℚ) {previousU : InputCommand}
    (hprevious : limits.InRange previousU.txPowerDbm) (content : Text) :
    FailSafe limits timeS previousU content ↔
      RunsAccepted content ∧ FieldsOwned limits previousU.txPowerDbm content := by
  constructor
  · rintro ⟨result, hresult, -, hholds⟩
    unfold requestControl at hresult
    cases hparsed : parseResponse stod content with
    | error error =>
        rw [hparsed] at hresult
        cases hresult
    | ok parsed =>
        refine ⟨(parseResponse_ok_iff content).mp ⟨parsed, hparsed⟩, ?_⟩
        intro power hflag hpower hrange hne
        by_contra hmissing
        have haccepted := (acceptedPower_eq_some_iff hparsed power).mpr ⟨hflag, hpower, hrange⟩
        rw [hparsed] at hresult
        have hsame := hholds hmissing
        rw [← Except.ok.inj hresult] at hsame
        simp only [haccepted, Option.getD_some] at hsame
        exact hne hsame
  · rintro ⟨hruns, howned⟩
    obtain ⟨parsed, hparsed⟩ := (parseResponse_ok_iff content).mpr hruns
    refine ⟨_, by rw [requestControl, hparsed], ?_, ?_⟩
    · cases haccepted : acceptedPower limits parsed with
      | none => exact hprevious
      | some power => exact ((acceptedPower_eq_some_iff hparsed power).mp haccepted).2.2
    · intro hmissing
      cases haccepted : acceptedPower limits parsed with
      | none => rfl
      | some power =>
          obtain ⟨hflag, hpower, hrange⟩ := (acceptedPower_eq_some_iff hparsed power).mp haccepted
          by_contra hne
          exact hmissing (howned power hflag hpower hrange hne)

/-! ## Runs -/

/-- A control call of a run: its time and the response it finds. -/
abbrev ControlInput := ℚ × Text

/-- Every call of the run is fail-safe, each from the command of the one before. -/
def FailSafeRun (limits : ControlLimits) (previousU : InputCommand) :
    List ControlInput → Prop
  | [] => True
  | call :: rest =>
      FailSafe limits call.1 previousU call.2 ∧
        ∀ result, requestControl stod limits call.1 previousU call.2 = .ok result →
          FailSafeRun limits result.command rest

/-- Every response of the run meets the condition, against the power applied before it. -/
def ReadableRun (limits : ControlLimits) (previousU : InputCommand) :
    List ControlInput → Prop
  | [] => True
  | call :: rest =>
      (RunsAccepted call.2 ∧ FieldsOwned limits previousU.txPowerDbm call.2) ∧
        ∀ result, requestControl stod limits call.1 previousU call.2 = .ok result →
          ReadableRun limits result.command rest

/-- Whatever a call returns is in range when the power before it was. -/
theorem requestControl_inRange {limits : ControlLimits} {timeS : ℚ} {previousU : InputCommand}
    {content : Text} {result : ControlResult} (hprevious : limits.InRange previousU.txPowerDbm)
    (hok : requestControl stod limits timeS previousU content = .ok result) :
    limits.InRange result.command.txPowerDbm := by
  unfold requestControl at hok
  cases hparsed : parseResponse stod content with
  | error error =>
      rw [hparsed] at hok
      cases hok
  | ok parsed =>
      rw [hparsed] at hok
      rw [← Except.ok.inj hok]
      cases haccepted : acceptedPower limits parsed with
      | none => exact hprevious
      | some power => exact ((acceptedPower_eq_some_iff hparsed power).mp haccepted).2.2

/-- Powers between 10 and 23 dBm. -/
def plainLimits : ControlLimits := ⟨10, 23, 1 / 10⟩

def holdingTwenty : InputCommand := ⟨0, 20, 1 / 10⟩

/-- A well-formed answer, as the controller prints one. -/
def plainAnswer : Text := "\x7b\"success\": true, \"tx_power_dbm\": 15.5\x7d".toList

def failedAnswer : Text := "\x7b\"success\": false\x7d".toList

/-- What follows the two keys of the answer. -/
def afterSuccess : Text := " true, \"tx_power_dbm\": 15.5\x7d".toList

def afterPower : Text := " 15.5\x7d".toList

end DeepcV2x.Bridge
