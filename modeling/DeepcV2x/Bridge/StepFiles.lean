import DeepcV2x.Foundation.Strings

/-!
# Names of the step files

Both parties derive file names from the control step: the simulator with
`BuildStepPath`, the controller by replacing the prefix of the request it read.
The two derivations agree and different steps have different names.
-/

namespace DeepcV2x.Bridge

open DeepcV2x.Foundation.Strings

def requestPrefix : Text := "request_".toList
def responsePrefix : Text := "response_".toList
def jsonSuffix : Text := ".json".toList

/-- `BuildStepPath` without the directory. -/
def buildStepName (namePrefix : Text) (step : Nat) : Text :=
  namePrefix ++ (paddedDecimal 6 step ++ jsonSuffix)

def requestName (step : Nat) : Text := buildStepName requestPrefix step
def responseName (step : Nat) : Text := buildStepName responsePrefix step

/-- `request_path.name.replace("request_", "response_")`. -/
def responseNameOf (name : Text) : Text := replaceAll requestPrefix responsePrefix name

/-- `glob("request_*.json")`. -/
def matchesRequestGlob (name : Text) : Bool :=
  requestPrefix.isPrefixOf name && jsonSuffix.isSuffixOf name

theorem buildStepName_injective (namePrefix : Text) {left right : Nat}
    (same : buildStepName namePrefix left = buildStepName namePrefix right) : left = right := by
  have hnumeral : paddedDecimal 6 left = paddedDecimal 6 right :=
    List.append_cancel_right (List.append_cancel_left same)
  rw [← digitsValue_paddedDecimal 6 left, hnumeral, digitsValue_paddedDecimal]

theorem requestName_injective {left right : Nat} (same : requestName left = requestName right) :
    left = right :=
  buildStepName_injective _ same

theorem responseName_injective {left right : Nat} (same : responseName left = responseName right) :
    left = right :=
  buildStepName_injective _ same

theorem matchesRequestGlob_requestName (step : Nat) :
    matchesRequestGlob (requestName step) = true := by
  have hprefixed : requestPrefix <+: requestName step := List.prefix_append _ _
  have hsuffix : jsonSuffix <:+ requestName step := by
    rw [requestName, buildStepName, ← List.append_assoc]
    exact List.suffix_append _ _
  simp [matchesRequestGlob, List.isPrefixOf_iff_prefix.mpr hprefixed,
    List.isSuffixOf_iff_suffix.mpr hsuffix]

/-- The controller answers under the name the simulator waits for. -/
theorem responseNameOf_requestName (step : Nat) :
    responseNameOf (requestName step) = responseName step := by
  have hnot : 'r' ∉ paddedDecimal 6 step ++ jsonSuffix := by
    intro hmem
    rcases List.mem_append.mp hmem with hnumeral | hsuffix
    · have hdigit := isDigit_of_mem_paddedDecimal hnumeral
      revert hdigit
      decide
    · revert hsuffix
      decide
  exact @replaceAll_prefixed 'r' "equest_".toList responsePrefix _ hnot

end DeepcV2x.Bridge
