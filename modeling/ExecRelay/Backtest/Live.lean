/-
**The backtest keeps the position of the live path.**

Live, a signal is a request to the ML route. The handler asks the predictor with the position, publishes
the command of the decision, and the executor carries it out (`LiveStep`). In the backtest the filtered
branch is given the decision itself. Both follow the same decision (`followed`):

`live_eq_filtered` puts them together over all signals that the backtest scores.
-/

import ExecRelay.Backtest.Comparison
import ExecRelay.Ingress.Prediction

namespace ExecRelay.Backtest

open Lib
open Predictor
open Ingress (Config Request Log Asks Completes PredictResponse commandsPublished decideML
  mapDecisionToCommand)

variable {Stamp Price Value : Type}

/-! ### The live path -/

def wire (prediction : Prediction) : PredictResponse where
  probWin := prediction.probWin
  threshold := prediction.threshold
  actionSummary := prediction.actionSummary.string
  error := prediction.error
  modelVersion := prediction.modelVersion

/-- **What a published command does to the position.** -/
def carryOut (position : Option Side) (command : Option Bytes) : Option Side :=
  if command = some (lit "buy") then position.or (some .long)
  else if command = some (lit "sell") then position.or (some .short)
  else if command = some (lit "closelong") ∨ command = some (lit "closeshort") then none
  else if command = some (lit "closeshortopenlong") then some .long
  else if command = some (lit "closelongopenshort") then some .short
  else position

/-- **One signal on the live path**: a request that asks the predictor with the direction and the
position, is answered without an error and runs to its end, and the commands that it publishes. -/
def LiveStep (config : Config) (predictor : XGBPredictor Value) (payload : Payload Value)
    (before after : Option Side) : Prop :=
  ∃ timestamp r log query next later, Asks config r log query next ∧
    payload.direction = some query.direction ∧ query.currentPosition = before.map Side.string ∧
    (predictor.predict timestamp payload before).error = none ∧
    Completes (next (.ok (wire (predictor.predict timestamp payload before)))) later ∧
    after = (commandsPublished later).foldl carryOut before

/-- The live path over a list of signals. -/
inductive Live (config : Config) (predictor : XGBPredictor Value) :
    Option Side → List (Payload Value) → Option Side → Prop
  | over (position : Option Side) : Live config predictor position [] position
  | signal {payload : Payload Value} {rest : List (Payload Value)} {before middle after : Option Side}
      (step : LiveStep config predictor payload before middle)
      (later : Live config predictor middle rest after) :
      Live config predictor before (payload :: rest) after

/-! ### What follows from a decision -/

def followed (position : Option Side) (decision : Prediction) : Option Side :=
  if decision.shouldOpen then decision.openDirection
  else if decision.shouldClose then none
  else position

def positionText (position : Option Side) : Bytes :=
  (position.map Side.string).getD []

/-- **The command of a decision** leads to the position that follows from it. -/
theorem carryOut_guide (predictor : XGBPredictor Value) (result : Prediction) (side : Side)
    (prob : Float64) (position : Option Side) :
    ((mapDecisionToCommand (predictor.guide result side prob position).actionSummary.string
      (positionText position)).toList.map fun command => some command.string).foldl carryOut position =
      followed position (predictor.guide result side prob position) := by
  unfold XGBPredictor.guide followed
  generalize predictor.threshold.lt prob = filterPass
  rcases position with _ | _ | _ <;> cases side <;> cases filterPass <;> rfl

theorem positionText_of_query {position : Bytes} {before : Option Side}
    (asked : (if position = [] then none else some position) = before.map Side.string) :
    position = positionText before := by
  split at asked
  · rename_i empty
    cases before with
    | none => exact empty
    | some side => cases asked
  · cases before with
    | none => cases asked
    | some side => exact Option.some.inj asked

/-- **One signal on the live path** leads to the position that follows from the decision. -/
theorem followed_of_liveStep {config : Config} {predictor : XGBPredictor Value}
    {payload : Payload Value} {before after : Option Side} (enforces : config.mlEnforce = true)
    (step : LiveStep config predictor payload before after) (timestamp : Bytes) :
    after = followed before (predictor.predict timestamp payload before) := by
  obtain ⟨answered, r, log, query, next, later, asks, -, position, fine, ends, rfl⟩ := step
  obtain ⟨req, -, -, -, rfl, start, wctx, record, traceID, row, rfl⟩ := Ingress.decision_of_asks asks
  have commands := Ingress.commandsPublished_of_publishes (Ingress.publishes_of_path ends.1) ends.2
  have noError : Ingress.predictionError (.ok (wire (predictor.predict answered payload before))) =
      .ok (wire (predictor.predict answered payload before)) := by
    rw [Ingress.predictionError, wire, fine]
  rw [Ingress.decideML_command, noError, enforces, positionText_of_query position] at commands
  obtain ⟨side, prob, guides⟩ := predictor.guide_of_predict fine
  obtain ⟨result, then_⟩ := guides answered
  obtain ⟨other, now⟩ := guides timestamp
  rw [commands, now, then_]
  exact carryOut_guide predictor result side prob before

/-! ### The filtered branch -/

def Sound (state : BranchState Stamp Price) : Prop :=
  state.openTrade.isSome = state.currentPosition.isSome

variable {state : BranchState Stamp Price}

theorem closeTrade_flat (sound : Sound state) (fill : Fill Stamp Price) :
    (state.closeTrade fill).openTrade = none ∧ (state.closeTrade fill).currentPosition = none := by
  unfold BranchState.closeTrade
  split
  · rename_i noTrade
    rw [Sound, noTrade] at sound
    exact ⟨noTrade, Option.isSome_eq_false_iff.mp sound.symm |> Option.isNone_iff_eq_none.mp⟩
  · exact ⟨rfl, rfl⟩

/-- **A branch and its guidance**: the trade and the position stay together, and the position is the one
that is opened, none after a close, and otherwise the one before. -/
theorem apply_position (sound : Sound state) (side : Side) {guidance : Guidance}
    (directed : guidance.shouldOpen = guidance.openDirection.isSome) (blocked : Bool)
    (fill : Fill Stamp Price) :
    Sound (state.apply side guidance blocked fill) ∧
      (state.apply side guidance blocked fill).currentPosition =
        if guidance.shouldOpen then guidance.openDirection
        else if guidance.shouldClose then none
        else state.currentPosition := by
  obtain ⟨shouldClose, shouldOpen, openDirection⟩ := guidance
  cases openDirection with
  | some direction =>
    cases directed
    exact ⟨rfl, rfl⟩
  | none =>
    cases directed
    cases shouldClose with
    | false =>
      simp only [BranchState.apply, Bool.false_eq_true, if_false]
      split_ifs <;> exact ⟨sound, rfl⟩
    | true =>
      let seen := { state with signalsSeen := state.signalsSeen + 1 }
      obtain ⟨noTrade, flat⟩ := closeTrade_flat (show Sound seen from sound) fill
      have closedSound : Sound (seen.closeTrade fill) := by
        rw [Sound, noTrade, flat]
        rfl
      simp only [BranchState.apply, if_true, Bool.not_true, Bool.false_and, Bool.false_eq_true, if_false]
      split_ifs <;> exact ⟨closedSound, flat⟩

theorem applyFiltered_currentPosition (sound : Sound state) (side : Side) {decision : Prediction}
    (directed : decision.shouldOpen = decision.openDirection.isSome) (fill : Fill Stamp Price) :
    Sound (applyFiltered state side decision fill) ∧
      (applyFiltered state side decision fill).currentPosition =
        followed state.currentPosition decision :=
  apply_position sound side directed _ fill

theorem directed_predict (predictor : XGBPredictor Value) (timestamp : Bytes)
    (payload : Payload Value) (position : Option Side) :
    (predictor.predict timestamp payload position).shouldOpen =
      (predictor.predict timestamp payload position).openDirection.isSome := by
  unfold XGBPredictor.predict
  dsimp only
  split
  · rfl
  · split
    · rfl
    · unfold XGBPredictor.guide
      dsimp only
      split
      · rename_i opens
        rw [opens]
        rfl
      · rename_i stays
        exact eq_false_of_ne_true stays

/-! ### All signals -/

section Run

variable [DecidableEq Stamp] (candles : List (Candle Stamp Price))
  (buildAt : Nat → Option (List (Bytes × Value)))

/-- What the filtered branch is fed for a signal: nothing without a candle or its features. -/
def fedBy (signal : RawSignal Stamp) : Option (Payload Value) :=
  (tsIndex candles signal.timestamp).bind fun index => (buildAt index).map (payloadOf signal)

def fed (signals : List (RawSignal Stamp)) : List (Payload Value) :=
  signals.filterMap (fedBy candles buildAt)

/-- One turn of the loop leaves the filtered branch alone, or applies the decision. -/
theorem compareSignal_filtered (predict : Payload Value → Option Side → Prediction)
    (state : Comparison Stamp Price) (signal : RawSignal Stamp) :
    match fedBy candles buildAt signal with
    | none => (compareSignal candles buildAt predict state signal).filtered = state.filtered
    | some payload => ∃ fill, (compareSignal candles buildAt predict state signal).filtered =
        applyFiltered state.filtered (signalSide signal)
          (predict payload state.filtered.currentPosition) fill := by
  unfold fedBy compareSignal
  cases tsIndex candles signal.timestamp with
  | none => rfl
  | some index =>
    dsimp only [Option.bind_some]
    cases buildAt index with
    | none => rfl
    | some features => exact ⟨_, rfl⟩

theorem live_eq_filtered_from {config : Config} (enforces : config.mlEnforce = true)
    (predictor : XGBPredictor Value) (timestamp : Bytes) (signals : List (RawSignal Stamp))
    {state : Comparison Stamp Price} (sound : Sound state.filtered) {after : Option Side}
    (live : Live config predictor state.filtered.currentPosition (fed candles buildAt signals) after) :
    after = (signals.foldl (compareSignal candles buildAt (predictor.predict timestamp))
      state).filtered.currentPosition := by
  induction signals generalizing state with
  | nil =>
    cases live
    rfl
  | cons signal rest ih =>
    have turn := compareSignal_filtered candles buildAt (predictor.predict timestamp) state
      signal
    rw [fed, List.filterMap_cons] at live
    cases found : fedBy candles buildAt signal with
    | none =>
      rw [found] at turn live
      refine ih ?_ ?_
      · rw [turn]
        exact sound
      · rw [turn]
        exact live
    | some payload =>
      rw [found] at turn live
      obtain ⟨fill, applied⟩ := turn
      cases live with
      | signal step later =>
        obtain ⟨stillSound, position⟩ := applyFiltered_currentPosition sound (signalSide signal)
          (directed_predict predictor timestamp payload state.filtered.currentPosition) fill
        rw [followed_of_liveStep enforces step timestamp, ← position, ← applied] at later
        rw [← applied] at stillSound
        exact ih stillSound later

/-- **The live position is that of the backtest.** Whatever the candles, the features, the model and the
signals are: a live path that starts flat and receives the signals that the backtest scores is left in
the position of the filtered branch. -/
theorem live_eq_filtered {config : Config} (enforces : config.mlEnforce = true)
    (predictor : XGBPredictor Value) (timestamp : Bytes) (signals : List (RawSignal Stamp))
    {after : Option Side}
    (live : Live config predictor none (fed candles buildAt signals) after) :
    after = (runComparison candles buildAt (predictor.predict timestamp)
      signals).filtered.currentPosition := by
  have flat : Sound ({} : Comparison Stamp Price).filtered := rfl
  exact live_eq_filtered_from candles buildAt enforces predictor timestamp signals flat live

end Run

/-! ### A buy and a sell -/

def surePredictor : XGBPredictor Unit where
  threshold := ⟨0x3FE0000000000000⟩
  modelVersion := lit "0f1e2d3c4b5a"
  featureOrder := lit "direction" :: (List.range 35).map fun index => lit (toString index)
  complete := by decide
  booster := fun _ => .ok ⟨0x3FECCCCCCCCCCCCD⟩
  toFloat := fun _ => .ok .zero
  roundFour := id
  fixed := fun _ _ => lit "0.900"

def plainFeatures : List (Bytes × Unit) :=
  (List.range 35).map fun index => (lit (toString index), ())

def plainCandles : List (Candle Nat Nat) :=
  (List.range 3).map fun time =>
    { timestamp := time, openPrice := 100, high := 102, low := 99, close := 101, volume := 0 }

def buyThenSell : List (RawSignal Nat) :=
  [⟨0, 1⟩, ⟨1, -1⟩]

/-- The service enforces the decisions; a request says `buy` while flat or `sell` while long. -/
def enforcing : Config :=
  { Ingress.scoringConfig with
    mlEnforce := true
    decodeML := fun body =>
      if body = lit "buy" then .ok Ingress.buyRequest
      else .ok { Ingress.buyRequest with action := lit "sell", currentPosition := some (lit "long") } }

def answering (response : PredictResponse) : (op : Ingress.Op) → Ingress.Answer op
  | .predict _ => .ok response
  | op => Ingress.obliging op

def isEncodeFailed : Ingress.Op → Bool
  | .respond response => response.status = 500
  | _ => false

/-- The request asks at the position before, and what it then publishes leads to the position after. -/
def leadsTo (response : PredictResponse) (direction : Option Int) (before after : Option Side) :
    List Ingress.Op → Bool
  | .predict query :: back =>
    direction = some query.direction && query.currentPosition = before.map Side.string &&
      back.all (fun op => !isEncodeFailed op) &&
      after = (commandsPublished (back.map fun op => ⟨op, answering response op⟩)).foldl carryOut before
  | _ => false

theorem liveStep_of_calls {config : Config} {predictor : XGBPredictor Value} {payload : Payload Value}
    {before after : Option Side} (timestamp : Bytes) (r : Request)
    (fine : (predictor.predict timestamp payload before).error = none)
    (leads : leadsTo (wire (predictor.predict timestamp payload before)) payload.direction before after
      (((Ingress.webhookML config r).calls
        (answering (wire (predictor.predict timestamp payload before)))).dropWhile
          fun op => !Ingress.isPredict op) = true) :
    LiveStep config predictor payload before after := by
  generalize response : wire (predictor.predict timestamp payload before) = answer at leads
  have split := List.takeWhile_append_dropWhile (p := fun op => !Ingress.isPredict op)
    (l := (Ingress.webhookML config r).calls (answering answer))
  unfold leadsTo at leads
  split at leads
  · rename_i query back shape
    rw [shape] at split
    simp only [Bool.and_eq_true, decide_eq_true_eq, List.all_eq_true, Bool.not_eq_true'] at leads
    obtain ⟨⟨⟨direction, position⟩, encoded⟩, leads⟩ := leads
    have ends : (Ingress.webhookML config r).outcome (answering answer) = .ok () := by
      cases (Ingress.webhookML config r).outcome (answering answer) with
      | ok => rfl
      | error impossible => exact impossible.elim
    obtain ⟨next, asks, completes⟩ := Program.Path.at_call _ ends split.symm
    refine ⟨timestamp, r, _, query, next, _, asks, direction, position, fine, ⟨?_, ?_⟩, leads⟩
    · rw [response]
      exact completes
    · intro member
      obtain ⟨op, inside, same⟩ := List.mem_map.mp member
      have isFailed : op = .respond Ingress.encodeFailed := congrArg Event.op same
      have here := encoded op inside
      rw [isFailed] at here
      cases here
  · cases leads

def requestOf (body : String) : Request :=
  { Ingress.plainRequest with body := lit body }

/-- The buy opens a long position, and the sell reverses it. -/
theorem live_eq_filtered_reversed :
    Live enforcing surePredictor none (fed plainCandles (fun _ => some plainFeatures) buyThenSell)
        (some .short) ∧
      some Side.short = (runComparison plainCandles (fun _ => some plainFeatures)
        (surePredictor.predict []) buyThenSell).filtered.currentPosition := by
  have live : Live enforcing surePredictor none
      (fed plainCandles (fun _ => some plainFeatures) buyThenSell) (some .short) := by
    have bought : LiveStep enforcing surePredictor ⟨some 1, some plainFeatures⟩ none (some .long) :=
      liveStep_of_calls [] (requestOf "buy") (by decide +kernel) (by decide +kernel)
    have sold : LiveStep enforcing surePredictor ⟨some (-1), some plainFeatures⟩ (some .long)
        (some .short) :=
      liveStep_of_calls [] (requestOf "sell") (by decide +kernel) (by decide +kernel)
    exact .signal bought (.signal sold (.over _))
  exact ⟨live, live_eq_filtered _ _ rfl surePredictor [] buyThenSell live⟩

end ExecRelay.Backtest
