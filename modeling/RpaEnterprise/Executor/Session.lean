import RpaEnterprise.Executor.Actions
import RpaEnterprise.Gateway.Contract
import RpaEnterprise.Lib.CodeUnits
import RpaEnterprise.Lib.Dialogue

/-!
# What the DOM executor awaits

The executor talks to a browser session and looks at a clock and an abort
signal.  They are the other side of its dialogue: a page may answer a script with
anything.
-/

namespace RpaEnterprise.Executor

open Lib Gateway

/-! ## Page states -/

structure DomLandmark where
  role : String
  name : String
  pathHash : String
deriving Repr, DecidableEq

inductive ChallengeType where
  | captcha
  | mfa
  | blockPage
  | rateLimit
  | loginLoop
  | accessDenied
  | sessionExpired
  | unknown
deriving Repr, DecidableEq

def ChallengeType.text : ChallengeType → String
  | .captcha => "captcha"
  | .mfa => "mfa"
  | .blockPage => "block_page"
  | .rateLimit => "rate_limit"
  | .loginLoop => "login_loop"
  | .accessDenied => "access_denied"
  | .sessionExpired => "session_expired"
  | .unknown => "unknown"

structure ChallengeSummary where
  type : ChallengeType
  detectedBy : String
  confidence : Rat
deriving DecidableEq

inductive Auth where
  | unknown
  | anonymous
  | authenticated
  | expired
deriving Repr, DecidableEq

structure PageState where
  /-- `url.pattern`. -/
  urlPattern : String
  /-- `dom.structuralHash`. -/
  structuralHash : String
  landmarks : List DomLandmark
  auth : Auth
  challenge : Option ChallengeSummary := none
  flags : List (String × Bool)

/-- The run's context, as far as the page parts of a step read it. -/
structure RunContext where
  pageState : PageState

def pageStateRef (state : PageState) : String := s!"ps_{state.structuralHash}"

/-! ## Questions to the page -/

/-- The scripts the executor evaluates in the page. -/
inductive PageScript where
  | insertRichBody (frame value : String) (probe : List UInt16)
  | rowAnchors (selector : String) (textSelector : Option String) (attributeName : String)
deriving Repr, DecidableEq

inductive PageAsk where
  | aborted
  | clock
  | evaluate (script : PageScript)
deriving Repr, DecidableEq

@[reducible]
def PageAsk.Reply : PageAsk → Type
  | .aborted => Bool
  | .clock => Nat
  | .evaluate _ => Except String Json

/-- What a step can throw: the executor's own errors and what the page throws. -/
inductive Raised where
  | executor (error : DomExecutorError)
  | other (message : String)
deriving Repr, DecidableEq

abbrev PageStep (Value : Type) := Dialogue PageAsk PageAsk.Reply Raised Value

def raise {Value : Type} (message : String) : PageStep Value := .fail (.executor (schemaInvalid message))

def raiseAborted {Value : Type} (message : String) : PageStep Value := .fail (.executor ⟨.runAborted, message⟩)

/-- `ctx.abortSignal.aborted`. -/
def aborted : PageStep Bool := .perform PageAsk.aborted

def clock : PageStep Nat := .perform PageAsk.clock

/-- `session.evaluate`, with what it throws as a value. -/
def tryEvaluate (script : PageScript) : PageStep (Except String Json) :=
  .perform (PageAsk.evaluate script)

def evaluate (script : PageScript) : PageStep Json := (tryEvaluate script).awaitOr .other

/-- The settings an executor is built with. -/
structure Deps where
  /-- The first group of `new RegExp(pattern).exec(text)`. -/
  capture : String → String → Option String
  clickSettleMs : Nat

/-! ## Results -/

inductive StepStatus where
  | success
  | failedBusiness
  | failedSystem
  | failedChallenge
  | failedSecurity
  | suspended
deriving Repr, DecidableEq

inductive ExceptionClass where
  | business
  | system
  | challenge
  | security
deriving Repr, DecidableEq

inductive CacheMode where
  | bypass
  | hit
  | miss
deriving Repr, DecidableEq

structure SideEffect where
  kind : String
  committed : Bool
deriving Repr, DecidableEq

/-- The result of an act, without its timings. -/
structure StepResult where
  stepId : String
  action : Primitive
  status : StepStatus
  /-- `output.plan`. -/
  plan : ActionPlan
  pageStateBefore : String
  pageStateAfter : String
  artifacts : List String := []
  stagehandCallIds : List String := []
  cache : CacheMode
  sideEffect : SideEffect

end RpaEnterprise.Executor
