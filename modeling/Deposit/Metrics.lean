import Deposit.Number.Binary64

/-!
Measurements of publications, and their export as text.

The log holds every measurement since the registry was initialized. The exact
totals are functions of the log; the export sums durations and bytes in binary
floating point, as its format does.
-/

namespace Deposit

/-- One measurement. -/
inductive Measurement where
  /-- A finished publication: `success` or the step that failed, and the seconds. -/
  | publication (outcome : String) (seconds : Binary64)
  /-- A create call, and the bytes sent with it. -/
  | upload (kind : String) (success : Bool) (bytes : Nat)
  /-- A step that went on without its object. -/
  | degraded (step : String)
  deriving DecidableEq, Repr

/-- Measurements in the order they were made. -/
abbrev MeasurementLog := List Measurement

/-- The log, once it is kept: measurements made before are lost. -/
abbrev Registry := Option MeasurementLog

namespace Registry

/-- Starts to keep a log; one that is kept stays. -/
def start (registry : Registry) : Registry := some (registry.getD [])

/-- Adds measurements to the log, if one is kept. -/
def record (registry : Registry) (measurements : List Measurement) : Registry :=
  registry.map (· ++ measurements)

end Registry

namespace MeasurementLog

/-! ### Totals -/

/-- The number of publications with an outcome. -/
def publications (log : MeasurementLog) (outcome : String) : Nat :=
  log.countP fun
    | .publication o _ => o == outcome
    | _ => false

/-- The number of create calls for a kind of object that were accepted, or refused. -/
def uploads (log : MeasurementLog) (kind : String) (success : Bool) : Nat :=
  log.countP fun
    | .upload k s _ => k == kind && s == success
    | _ => false

/-- The sizes of the accepted objects of a kind. -/
def uploadedSizes (log : MeasurementLog) (kind : String) : List Nat :=
  log.filterMap fun
    | .upload k true bytes => if k == kind then some bytes else none
    | _ => none

/-- The number of bytes of the accepted objects of a kind. -/
def uploadedBytes (log : MeasurementLog) (kind : String) : Nat := 
  (log.uploadedSizes kind).foldl (· + ·) 0

/-- The number of times a step went on without its object. -/
def degradations (log : MeasurementLog) (step : String) : Nat :=
  log.countP fun
    | .degraded s => s == step
    | _ => false

/-- The durations of the publications with an outcome. -/
def durations (log : MeasurementLog) (outcome : String) : List Binary64 :=
  log.filterMap fun
    | .publication o seconds => if o == outcome then some seconds else none
    | _ => none

/-! ### Labels -/

/-- Texts without repetition, in order. -/
def distinct (texts : List String) : List String :=
  texts.eraseDups.mergeSort fun a b => (compare a b).isLE

/-- The outcomes in a log. -/
def outcomes (log : MeasurementLog) : List String :=
  distinct (log.filterMap fun
    | .publication outcome _ => some outcome
    | _ => none)

/-- The kinds of objects that create calls were made for. -/
def kinds (log : MeasurementLog) : List String :=
  distinct (log.filterMap fun
    | .upload kind _ _ => some kind
    | _ => none)

/-- The steps that went on without their object. -/
def steps (log : MeasurementLog) : List String :=
  distinct (log.filterMap fun
    | .degraded step => some step
    | _ => none)

/-! ### Export -/

/-- The text of a label's value between its quotes. -/
def escapeLabel (value : String) : String :=
  String.join (value.toList.map fun
    | '\\' => "\\\\"
    | '\n' => "\\n"
    | '"' => "\\\""
    | c => c.toString)

/-- One line of an export: a series with its labels, and its value. -/
def sample (name : String) (labels : List (String × String)) (value : String) : String :=
  name ++ "\x7b" ++
    ",".intercalate (labels.map fun (label, v) => label ++ "=\"" ++ escapeLabel v ++ "\"") ++
    "\x7d " ++ value

/-- Exported numbers have no exponent, and whole ones no point. -/
def sampleStyle : Binary64.Style where
  positional := none
  point := false
  exponentSign := ""

/-- The text of a sum, where one that exceeds the greatest number is infinite. -/
def sumText (terms : List (Option Binary64)) : String :=
  let sum : Option Binary64 :=
    terms.foldl (fun sum term => do Binary64.add (← sum) (← term)) (some Binary64.zero)
  match sum with
  | some x => x.text sampleStyle
  | none => "inf"

/-- The lines of all series of one name, under their heading; none without a series. -/
def family (name help type : String) (samples : List String) : List String :=
  if samples.isEmpty then []
  else ("# HELP " ++ name ++ " " ++ help) :: ("# TYPE " ++ name ++ " " ++ type) :: samples

/-- The bounds in seconds that durations are counted under. -/
def durationBounds : List Nat := [1, 5, 15, 30, 60, 120, 300, 900]

/-- The lines on the durations of one outcome: how many are within each bound, their
sum, and their number. -/
def durationSamples (log : MeasurementLog) (outcome : String) : List String :=
  let name := "tale_publish_duration_seconds"
  let durations := log.durations outcome
  let bucket (bound : String) (count : Nat) : String :=
    sample (name ++ "_bucket") [("outcome", outcome), ("le", bound)] (Nat.repr count)
  durationBounds.map (fun bound =>
      bucket (Nat.repr bound) (durations.countP (·.atMost bound))) ++
    [bucket "+Inf" durations.length,
     sample (name ++ "_sum") [("outcome", outcome)] (sumText (durations.map some)),
     sample (name ++ "_count") [("outcome", outcome)] (Nat.repr durations.length)]

/-- The lines on the create calls for one kind of object, refused ones first. -/
def uploadSamples (log : MeasurementLog) (kind : String) : List String :=
  [("failure", false), ("success", true)].filterMap fun (status, success) =>
    let count := log.uploads kind success
    if count = 0 then none
    else some (sample "tale_publish_uploads_total" [("kind", kind), ("status", status)]
      (Nat.repr count))

/-- The line on the bytes of one kind of object, if one was accepted. -/
def uploadedByteSamples (log : MeasurementLog) (kind : String) : Option String :=
  let sizes := log.uploadedSizes kind
  if sizes.isEmpty then none
  else some (sample "tale_publish_uploaded_bytes_total" [("kind", kind)]
    (sumText (sizes.map Binary64.ofNat)))

/-- The export of a log: families by name, series by labels. -/
def lines (log : MeasurementLog) : List String :=
  family "tale_publish_degraded_steps_total" "Best-effort steps that produced no object" "counter"
    (log.steps.map fun step =>
      sample "tale_publish_degraded_steps_total" [("step", step)]
        (Nat.repr (log.degradations step))) ++
  family "tale_publish_duration_seconds" "Publish run duration in seconds" "histogram"
    (log.outcomes.map log.durationSamples).flatten ++
  family "tale_publish_publishes_total" "Total publish runs" "counter"
    (log.outcomes.map fun outcome =>
      sample "tale_publish_publishes_total" [("outcome", outcome)]
        (Nat.repr (log.publications outcome))) ++
  family "tale_publish_uploaded_bytes_total" "Total bytes uploaded" "counter"
    (log.kinds.filterMap log.uploadedByteSamples) ++
  family "tale_publish_uploads_total" "Total object create calls" "counter"
    (log.kinds.map log.uploadSamples).flatten

/-- The samples alone, without headings. -/
def samples (log : MeasurementLog) : List String := log.lines.filter (!·.startsWith "#")

end MeasurementLog

/-- The text of an export. -/
def Registry.text : Registry → String
  | some log => String.join (log.lines.map (· ++ "\n"))
  | none => "# Metrics not initialized. Call init_metrics() first.\n"

end Deposit
