/-
**The predictor's guidance** (`apps/ml-predictor/xgb_predictor.py`; the backtester has a copy of it in
`apps/backtester/xgb_predictor.py`, without the version of the model).

A signal against the position closes it, whatever the model says. A position is opened only if there is
none left and the probability of the model is above the threshold. The model, Python's conversion of a
feature to a float and the formats of its texts are fields of the predictor.
-/

import ExecRelay.Lib.Bytes
import ExecRelay.Lib.Float64

namespace ExecRelay.Predictor

open Lib

/-! ### Data -/

/-- The side of a signal or of a position. -/
inductive Side
  | long
  | short
  deriving DecidableEq, Repr

def Side.string : Side → Bytes
  | .long => lit "LONG"
  | .short => lit "SHORT"

/-- `action_summary`. -/
inductive ActionSummary
  | openSide (side : Side)
  | flipSide (side : Side)
  | closeOnly
  | nothing
  deriving DecidableEq, Repr

def ActionSummary.string : ActionSummary → Bytes
  | openSide side => lit "OPEN_" ++ side.string
  | flipSide side => lit "FLIP_" ++ side.string
  | closeOnly => lit "CLOSE_ONLY"
  | nothing => lit "NOTHING"

/-- What is to be scored. Both callers send an integer for the direction. -/
structure Payload (Value : Type) where
  direction : Option Int
  features : Option (List (Bytes × Value))

/-- The dictionary that `predict` returns. -/
structure Prediction where
  signalDirection : Option Side := none
  probWin : Option Float64 := none
  threshold : Float64
  shouldClose : Bool := false
  shouldOpen : Bool := false
  openDirection : Option Side := none
  actionSummary : ActionSummary := .nothing
  reason : Bytes := []
  timestamp : Bytes
  modelVersion : Bytes
  error : Option Bytes := none
  deriving DecidableEq, Repr

def expectedFeatureCount : Nat := 36

structure XGBPredictor (Value : Type) where
  threshold : Float64
  modelVersion : Bytes
  featureOrder : List Bytes
  /-- The constructor refuses any other number of features. -/
  complete : featureOrder.length = expectedFeatureCount
  /-- The trained model on one row, with the row cast to single precision. -/
  booster : List Float64 → Except Bytes Float64
  /-- `float` on a feature. -/
  toFloat : Value → Except Bytes Float64
  /-- `round(_, 4)`. -/
  roundFour : Float64 → Float64
  /-- The format with so many decimals. -/
  fixed : Nat → Float64 → Bytes

/-! ### Scoring -/

namespace XGBPredictor

variable {Value : Type} (predictor : XGBPredictor Value)

def sideOf (direction : Int) : Except Bytes Side :=
  if direction = 1 then .ok .long
  else if direction = -1 then .ok .short
  else .error (lit "direction must be 1 or -1, got " ++ lit (toString direction))

/-- `float` of a direction. -/
def directionFeature : Side → Float64
  | .long => ⟨0x3FF0000000000000⟩
  | .short => ⟨0xBFF0000000000000⟩

/-- The text of the `KeyError`, which is its message in quotes. -/
def missingFeatures (missing : List Bytes) : Bytes :=
  let quoted := missing.map fun name => lit "'" ++ name ++ lit "'"
  lit "\"Missing features: [" ++ (lit ", ").intercalate quoted ++ lit "]\""

def buildFeatureVector (features : List (Bytes × Value)) (side : Side) :
    Except Bytes (List Float64) :=
  let isDirection (name : Bytes) : Bool := name = lit "direction"
  let missing := predictor.featureOrder.filter fun name =>
    !isDirection name && (features.lookup name).isNone
  if missing ≠ [] then .error (missingFeatures missing)
  else predictor.featureOrder.mapM fun name =>
    -- the direction of the signal takes the place of a feature of that name
    if isDirection name then .ok (directionFeature side)
    else match features.lookup name with
      | some value => predictor.toFloat value
      | none => .error (missingFeatures [name])

def score (features : Option (List (Bytes × Value))) (side : Side) : Except Bytes Float64 :=
  match features with
  | none => .error (lit "payload must include 'features' dict")
  | some features => do
      let row ← predictor.buildFeatureVector features side
      predictor.booster row

/-! ### Guidance -/

def positionText (current : Option Side) : Bytes :=
  (current.map Side.string).getD (lit "None")

def reasonFor (summary : ActionSummary) (side : Side) (prob : Float64) (current : Option Side) :
    Bytes :=
  let above := lit "prob " ++ predictor.fixed 3 prob ++ lit " > " ++ predictor.fixed 2 predictor.threshold
  let below := lit "prob " ++ predictor.fixed 3 prob ++ lit " <= " ++ predictor.fixed 2 predictor.threshold
  match summary with
  | .flipSide _ =>
    lit "Close " ++ positionText current ++ lit ", open " ++ side.string ++ lit " (" ++ above ++ lit ")"
  | .closeOnly =>
    lit "Close " ++ positionText current ++ lit ", no new entry (" ++ side.string ++ lit " " ++ below ++
      lit ")"
  | .openSide _ => lit "Flat -> open " ++ side.string ++ lit " (" ++ above ++ lit ")"
  | .nothing =>
    if current = some side then lit "Already in " ++ positionText current ++ lit ", ignore"
    else lit "Flat, " ++ side.string ++ lit " " ++ below ++ lit " -> skip"

def guide (result : Prediction) (side : Side) (prob : Float64) (current : Option Side) :
    Prediction :=
  let filterPass := predictor.threshold.lt prob
  let shouldClose :=
    current = some .long && side = .short || current = some .short && side = .long
  let willBeFlat := current = none || shouldClose
  let sameDirection : Bool := current = some side
  let shouldOpen := !sameDirection && (willBeFlat && filterPass)
  let summary : ActionSummary :=
    if shouldClose && shouldOpen then .flipSide side
    else if shouldClose then .closeOnly
    else if shouldOpen then .openSide side
    else .nothing
  { result with
    shouldClose := shouldClose
    shouldOpen := shouldOpen
    openDirection := if shouldOpen then some side else none
    actionSummary := summary
    reason := predictor.reasonFor summary side prob current }

def predict (timestamp : Bytes) (payload : Payload Value) (current : Option Side) : Prediction :=
  let result : Prediction :=
    { threshold := predictor.threshold, timestamp := timestamp
      modelVersion := predictor.modelVersion }
  match sideOf (payload.direction.getD 0) with
  | .error text => { result with error := some text }
  | .ok side =>
    let result := { result with signalDirection := some side }
    match predictor.score payload.features side with
    | .error text => { result with error := some text }
    | .ok prob =>
      predictor.guide { result with probWin := some (predictor.roundFour prob) } side prob current

/-- **A prediction without an error** is guidance, whenever it is made. -/
theorem guide_of_predict {timestamp : Bytes} {payload : Payload Value} {current : Option Side}
    (fine : (predictor.predict timestamp payload current).error = none) :
    ∃ side prob, ∀ timestamp, ∃ result,
      predictor.predict timestamp payload current = predictor.guide result side prob current := by
  unfold predict at fine ⊢
  split at fine
  · cases fine
  · rename_i side known
    split at fine
    · cases fine
    · rename_i prob scored
      exact ⟨side, prob, fun timestamp => ⟨_, rfl⟩⟩

end XGBPredictor

end ExecRelay.Predictor
