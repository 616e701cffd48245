import CoreUtils.Library.Text
import Mathlib.Data.Rat.Defs
import Mathlib.Data.Rat.Cast.Order

/-!
# Priority tiers of network observations

The tier of an observation shape, after `networkPriority.ts`, and the static-asset filter of
`signalFiltering.ts`. Numbers that the trace supplies (a status, an offset) pass `asNumber`, so they
are finite doubles, which are rationals; the code only compares them, and that comparison is exact.
-/

namespace CoreUtils.Reporter

open Text

/-- The caps and the sampling constants of `constants.ts`. -/
def INSTANCES_CAP : ℕ := 500
@[inherit_doc INSTANCES_CAP] def GROUPS_CAP : ℕ := 200
@[inherit_doc INSTANCES_CAP] def BODIES_CAP : ℕ := 100
@[inherit_doc INSTANCES_CAP] def DUPLICATE_SAMPLE_THRESHOLD : ℕ := 3
@[inherit_doc INSTANCES_CAP] def DUPLICATE_SAMPLE_STRIDE : ℕ := 10

/-- Resource types that carry little diagnostic signal. -/
def LOW_SIGNAL_RESOURCE_TYPES : List String :=
  ["script", "stylesheet", "image", "font", "media"]

/-- The part of a shape that decides its priority. -/
structure PriorityShape where
  status : ℚ
  resourceType : Option String
  failureText : Option String
  wasAborted : Option Bool
  deriving DecidableEq

/-- The word characters of `\b`. -/
def isWordChar (c : Char) : Bool := c.isAlphanum || c == '_'

/-- `/^net::ERR_ABORTED\b/i.test`: the prefix is compared up to ASCII case, and the character
after it, if any, is not a word character. -/
def abortedFailurePattern (text : List Char) : Bool :=
  let expected := "NET::ERR_ABORTED".toList
  (text.take expected.length).map Char.toUpper == expected &&
    !((text.drop expected.length).head?.any isWordChar)

/-- Whether a failure text reports a plain abort. -/
def isAbortFailureText : Option String → Bool
  | none => false
  | some text => abortedFailurePattern (trim isWhiteSpace text.toList)

/-- The priority tier of a shape: higher survives longer. -/
def priorityScore (shape : PriorityShape) : ℕ :=
  if shape.status ≥ 500 then 10
  else if shape.failureText.isSome && !isAbortFailureText shape.failureText then 9
  else if shape.status ≥ 400 then 8
  else if shape.resourceType = some "xhr" ∨ shape.resourceType = some "fetch" then 6
  else if isAbortFailureText shape.failureText ∨ shape.status = -1 ∨ shape.wasAborted = some true
  then 4
  else
    match shape.resourceType with
    | none => 3
    | some resourceType => if resourceType ∈ LOW_SIGNAL_RESOURCE_TYPES then 1 else 2

/-- The filter that drops successful static assets before they are counted. -/
def isLowSignalStaticAsset (shape : PriorityShape) : Bool :=
  shape.resourceType.any (· ∈ LOW_SIGNAL_RESOURCE_TYPES) &&
    decide (shape.status < 400) &&
    shape.failureText.isNone &&
    shape.wasAborted != some true

end CoreUtils.Reporter
