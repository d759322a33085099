import DeepcV2x.Foundation.Json
import Mathlib.Data.Rat.Defs

/-!
# The request a controller reads

The fields of a request object that the controllers look at, and
`TxPowerDeepc.read_request_histories` with its exceptions.
-/

namespace DeepcV2x.Controller

open DeepcV2x.Foundation.Strings DeepcV2x.Foundation.Json

/-! ## Exceptions -/

inductive PyException
  | keyError (key : Text)
  | indexError
  | valueError (message : Text)
  | runtimeError (message : Text)
  deriving DecidableEq, Repr

/-- `str(exc)`. -/
def PyException.str : PyException → Text
  | .keyError key => '\x27' :: (key ++ ['\x27'])
  | .indexError => "list index out of range".toList
  | .valueError message => message
  | .runtimeError message => message

/-! ## Requests -/

def tini : Nat := 20
def horizon : Nat := 10
def txPowerCol : Text := "tx_power_dbm".toList

def outputCols : List Text := ["prr_awareness".toList, "pir_s".toList, "cbr".toList]

def contextCols : List Text := ["active_vehicle_count_core".toList, "beacon_interval_s".toList]

/-- A request object; `none` where a key is missing. -/
structure Request where
  step : Option ℤ
  timeS : Option ℚ
  pastHorizon : Option ℤ
  futureHorizon : Option ℤ
  inputCols : Option (List Text)
  outputCols : Option (List Text)
  contextCols : Option (List Text)
  previousU : Option (List ℚ)
  uIni : Option (List ℚ)
  yIni : Option (List ℚ)
  dIni : Option (List ℚ)
  deriving DecidableEq, Repr

/-! ## Requests from JSON values -/

def asInt : Value → Option ℤ
  | .int number => some number
  | _ => none

def asNumber : Value → Option ℚ
  | .int number => some number
  | .float number => some number
  | _ => none

def asText : Value → Option Text
  | .string text => some text
  | _ => none

def asList {Item : Type} (as : Value → Option Item) : Value → Option (List Item)
  | .array items => items.mapM as
  | _ => none

/-- A member that is missing or has the expected type. -/
def member {Item : Type} (fields : List (Text × Value)) (name : Text) (as : Value → Option Item) :
    Option (Option Item) :=
  match lookupField fields name with
  | none => some none
  | some value => (as value).map some

/-- The request in a loaded value, when the members the controllers read have their types. -/
def Request.ofValue : Value → Option Request
  | .object fields => do
      let step ← member fields "step".toList asInt
      let timeS ← member fields "time_s".toList asNumber
      let pastHorizon ← member fields "past_horizon".toList asInt
      let futureHorizon ← member fields "future_horizon".toList asInt
      let inputCols ← member fields "input_cols".toList (asList asText)
      let outputCols ← member fields "output_cols".toList (asList asText)
      let contextCols ← member fields "context_cols".toList (asList asText)
      let previousU ← member fields "previous_u".toList (asList asNumber)
      let uIni ← member fields "u_ini".toList (asList asNumber)
      let yIni ← member fields "y_ini".toList (asList asNumber)
      let dIni ← member fields "d_ini".toList (asList asNumber)
      return {
        step := step
        timeS := timeS
        pastHorizon := pastHorizon
        futureHorizon := futureHorizon
        inputCols := inputCols
        outputCols := outputCols
        contextCols := contextCols
        previousU := previousU
        uIni := uIni
        yIni := yIni
        dIni := dIni }
  | _ => none

theorem asList_map {Item Source : Type} {as : Value → Option Item} {encode : Source → Value}
    {decode : Source → Item} {items : List Source}
    (hitems : ∀ entry ∈ items, as (encode entry) = some (decode entry)) :
    asList as (.array (items.map encode)) = some (items.map decode) := by
  rw [asList]
  induction items with
  | nil => rfl
  | cons head tail ih =>
      have hrest := ih fun entry hmem => hitems entry (List.mem_cons_of_mem _ hmem)
      rw [List.map_cons, List.mapM_cons, hitems head List.mem_cons_self, hrest]
      rfl

theorem asText_list (names : List Text) :
    asList asText (.array (names.map .string)) = some names := by
  have hlist := @asList_map Text Text asText Value.string id names fun _ _ => rfl
  rwa [List.map_id] at hlist

theorem member_of_mem {Item : Type} {fields : List (Text × Value)}
    (distinct : (fields.map Prod.fst).Nodup) {name : Text} {value : Value}
    {as : Value → Option Item} {found : Item} (hmem : (name, value) ∈ fields)
    (has : as value = some found) : member fields name as = some (some found) := by
  rw [member, lookupField_of_mem distinct hmem]
  dsimp only
  rw [has]
  rfl

/-! ## Reading members -/

/-- `request[key]`. -/
def item {Item : Type} (key : Text) : Option Item → Except PyException Item
  | none => .error (.keyError key)
  | some value => .ok value

/-- `values[index]` on a list. -/
def listItem {Item : Type} (values : List Item) (index : Nat) : Except PyException Item :=
  match values[index]? with
  | none => .error .indexError
  | some value => .ok value

/-- A check that raises a `ValueError`. -/
def check (passes : Bool) (message : Text) : Except PyException Unit :=
  if passes then .ok () else .error (.valueError message)

/-! ## Histories -/

/-- The three past vectors, with the shapes that were checked. -/
structure Histories where
  uIni : List ℚ
  yIni : List ℚ
  dIni : List ℚ
  uIni_length : uIni.length = tini
  yIni_length : yIni.length = tini * 3
  dIni_length : dIni.length = tini * 2

def horizonMessage : Text := "Request horizons do not match Tini=20, N=10".toList

def columnMessage : Text := "Request input/output columns do not match the controller".toList

def contextMessage : Text := "Request context columns do not match the controller".toList

/-- The dictionary of three shapes as Python prints it. -/
def shapesText (u y d : Nat) : Text :=
  let entry (name : Text) (size : Nat) : Text :=
    '\x27' :: (name ++ ['\x27', ':', ' ', '('] ++ Nat.toDigits 10 size ++ [',', ')'])
  '\x7b' :: (entry "u_ini".toList u ++ [',', ' '] ++ entry "y_ini".toList y ++ [',', ' '] ++
    entry "d_ini".toList d ++ ['\x7d'])

def shapeMessage (u y d : Nat) : Text :=
  "Bad request shapes: expected ".toList ++ shapesText tini (tini * 3) (tini * 2) ++
    ", got ".toList ++ shapesText u y d

def readRequestHistories (request : Request) : Except PyException Histories := do
  let pastHorizon ← item "past_horizon".toList request.pastHorizon
  check (pastHorizon = tini) horizonMessage
  let futureHorizon ← item "future_horizon".toList request.futureHorizon
  check (futureHorizon = horizon) horizonMessage
  let requestInputs ← item "input_cols".toList request.inputCols
  check (requestInputs = [txPowerCol]) columnMessage
  let requestOutputs ← item "output_cols".toList request.outputCols
  check (requestOutputs = outputCols) columnMessage
  check (request.contextCols = some contextCols) contextMessage
  let uIni ← item "u_ini".toList request.uIni
  let yIni ← item "y_ini".toList request.yIni
  let dIni ← item "d_ini".toList request.dIni
  if shapes : uIni.length = tini ∧ yIni.length = tini * 3 ∧ dIni.length = tini * 2 then
    return ⟨uIni, yIni, dIni, shapes.1, shapes.2.1, shapes.2.2⟩
  else
    throw (.valueError (shapeMessage uIni.length yIni.length dIni.length))

/-- A request with the expected horizons, columns and shapes is read as it is. -/
theorem readRequestHistories_ok {request : Request} {uIni yIni dIni : List ℚ}
    (hpast : request.pastHorizon = some tini) (hfuture : request.futureHorizon = some horizon)
    (hinputs : request.inputCols = some [txPowerCol])
    (houtputs : request.outputCols = some outputCols)
    (hcontext : request.contextCols = some contextCols) (hu : request.uIni = some uIni)
    (hy : request.yIni = some yIni) (hd : request.dIni = some dIni)
    (ulength : uIni.length = tini) (ylength : yIni.length = tini * 3)
    (dlength : dIni.length = tini * 2) :
    readRequestHistories request = .ok ⟨uIni, yIni, dIni, ulength, ylength, dlength⟩ := by
  unfold readRequestHistories
  rw [hpast, hfuture, hinputs, houtputs, hcontext, hu, hy, hd]
  have shapes : uIni.length = tini ∧ yIni.length = tini * 3 ∧ dIni.length = tini * 2 :=
    ⟨ulength, ylength, dlength⟩
  simp only [item, check, decide_true, if_true]
  exact dif_pos shapes

end DeepcV2x.Controller
