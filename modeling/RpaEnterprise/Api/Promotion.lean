import Mathlib.Data.Finset.Card
import Mathlib.Data.List.Sort
import RpaEnterprise.Executor.Recordings
import RpaEnterprise.Lib.Json

/-!
# Promotion of demonstrated actions

`loadRunActionPlans` collects the plans of a run by node from its recordings, and
`promoteActsToDeterministic` writes their selectors into the IR.
-/

namespace RpaEnterprise.Api.Promotion

open Lib
open Executor (ActionPlan parseActionPlan)
open Executor.Recordings

/-! ## The plans of a run -/

/-- A row of the query: a successful act with what the tables say of its plan. -/
structure StepRow where
  id : AttemptKey
  createdAt : Nat
  missPlan : Option Json
  hitPlan : Option String

def StepRow.stepId (row : StepRow) : String := row.id.1.nodeId ++ "." ++ toString row.id.1.index

/-- The answers of the calls joined to an attempt. -/
def answersOf (db : Database) (id : AttemptKey) : List Json :=
  (db.stagehandCalls.rows.filter fun entry => entry.2.id = id && entry.2.streamStatus = .done).filterMap
    fun entry => entry.2.parsedJson

/-- The row of the cache joined to an attempt. -/
def entryOf (db : Database) (row : RunStep) : Option CacheRow :=
  (row.actionPlanCacheId.bind db.actionPlanCache.get).filter fun entry => entry.joins row

/-- The two left joins: an attempt without an answer stays, with none. -/
def joined (db : Database) (id : AttemptKey) (row : RunStep) : List StepRow :=
  let answers := if answersOf db id = [] then [none] else (answersOf db id).map some
  answers.map fun answer => ⟨id, row.createdAt, answer, (entryOf db row).bind CacheRow.planRef⟩

def query (db : Database) (runId : String) : List StepRow :=
  let acts := db.runSteps.rows.filter fun entry =>
    entry.1.1.runId = runId && entry.2.action = "act" && entry.2.status = .success
  let rows := (acts.flatMap fun entry => joined db entry.1 entry.2).filter fun row =>
    row.missPlan.isSome || row.hitPlan.isSome
  rows.insertionSort fun one two =>
    one.createdAt < two.createdAt ∨ one.createdAt = two.createdAt ∧ one.stepId ≤ two.stepId

/-- A plan read from a row of the query. -/
structure Capture where
  id : AttemptKey
  plan : ActionPlan
deriving DecidableEq

def Capture.nodeId (capture : Capture) : String := capture.id.1.nodeId

def Capture.index (capture : Capture) : Nat := capture.id.1.index

/-- The last plan of a node. -/
def lastOf (captured : List Capture) (nodeId : String) : Option Capture :=
  captured.reverse.find? fun capture => capture.nodeId = nodeId

/-- `stepIdsByNode`: the indices of the steps of a node that had a plan. -/
def stepIds (captured : List Capture) (nodeId : String) : Finset Nat :=
  ((captured.filter fun capture => capture.nodeId = nodeId).map Capture.index).toFinset

/-- `plans[row.node_id] = plan`, where the name `__proto__` sets the prototype and adds no entry. -/
def assignPlan (plans : Table String ActionPlan) (capture : Capture) : Table String ActionPlan :=
  if capture.nodeId = "__proto__" then plans else plans.put capture.nodeId capture.plan

structure Loaded where
  plans : Table String ActionPlan
  ambiguousNodeIds : List String

section Load

variable (parse : String → Option Json)

def StepRow.plan (row : StepRow) : Option ActionPlan :=
  match row.missPlan with
  | none | some .null => (row.hitPlan.bind parse).bind parseActionPlan
  | some plan => parseActionPlan plan

def captures (db : Database) (runId : String) : List Capture :=
  (query db runId).filterMap fun row => (row.plan parse).map fun plan => ⟨row.id, plan⟩

/-- The loop over the rows, then the nodes with several steps taken out. -/
def load (captured : List Capture) : Loaded :=
  { plans := (captured.foldl assignPlan .empty).filter fun nodeId _ => (stepIds captured nodeId).card ≤ 1
    ambiguousNodeIds := (captured.map Capture.nodeId).eraseDups.filter fun nodeId =>
      1 < (stepIds captured nodeId).card }

def loadRunActionPlans (db : Database) (runId : String) : Loaded := load (captures parse db runId)

end Load

/-! ## The act a selector is written into -/

def argsOf (step : Json) : Option Json := step.field "args"

def hasTextArg (step : Json) (key : String) : Bool :=
  (((argsOf step).bind fun args => args.field key).bind Json.text?).isSome

def isAct (step : Json) : Bool := step.field "action" = some (.str "act")

/-- An act with a secret variable or a reference to its value. -/
def hasValueSource (step : Json) : Bool :=
  let hasVars := (((step.field "vars").bind Json.items?).getD []).any fun item => item.text?.any (· ≠ "")
  let hasValueRef := (((argsOf step).bind fun args => args.field "value_ref").bind Json.text?).any (· ≠ "")
  hasVars || hasValueRef

inductive SkipReason where
  | multiActNodeAmbiguous
  | nodeNotFound
  | nodeWhatMissing
  | noPromotableAct
  | fillNoValueSource
  | fillAlreadyDeterministic
deriving Repr, DecidableEq

/-- The index of the first act that suits the plan. -/
def chooseAct (what : List Json) : ActionPlan → Except SkipReason Nat
  | .click _ =>
    match what.findIdx? fun step => isAct step && !hasTextArg step "click_selector" with
    | some index => .ok index
    | none => .error .noPromotableAct
  | .fill _ _ _ =>
    match what.findIdx? fun step => isAct step && hasValueSource step with
    | none => .error .fillNoValueSource
    | some index =>
      if (what[index]?).any fun step => hasTextArg step "fill_selector" then .error .fillAlreadyDeterministic
      else .ok index
  | .select _ _ =>
    match what.findIdx? fun step => isAct step && !hasTextArg step "select_selector" with
    | some index => .ok index
    | none => .error .noPromotableAct

/-- What a plan adds to the arguments of an act. -/
def additions : ActionPlan → List (String × Json)
  | .click selector => [("click_selector", .str selector)]
  | .fill selector _ _ => [("fill_selector", .str selector)]
  | .select selector value => [("select_selector", .str selector), ("select_value", .str value)]

/-- `{ ...args, … }`, with `{}` for arguments that are no record. -/
def writeArgs (plan : ActionPlan) (step : Json) : Json :=
  .obj ((additions plan).foldl (fun fields entry => Json.assign entry.1 entry.2 fields)
    (((argsOf step).bind Json.record?).getD []))

def writeStep (plan : ActionPlan) (step : Json) : Json :=
  .obj (Json.assign "args" (writeArgs plan step) step.fields)

/-- A node with the plan written into the act at an index. -/
def writeAt (index : Nat) (plan : ActionPlan) (what : List Json) (node : Json) : Json :=
  .obj (Json.assign "what" (.arr (what.modify index (writeStep plan))) node.fields)

/-! ## The promotion -/

def whatOf (node : Json) : Option (List Json) := (node.field "what").bind Json.items?

/-- One round of the loop over the plans. -/
def promoteNode (nodes : List (String × Json)) (nodeId : String) (plan : ActionPlan) : Except SkipReason Json :=
  match (Json.lookup nodeId nodes).bind fun node => node.record?.map fun _ => node with
  | none => .error .nodeNotFound
  | some node =>
    match whatOf node with
    | none => .error .nodeWhatMissing
    | some what => (chooseAct what plan).map fun index => writeAt index plan what node

structure Progress where
  nodes : List (String × Json)
  promotedNodeIds : List String
  skipped : List (String × SkipReason)

def promoteOne (progress : Progress) (entry : String × ActionPlan) : Progress :=
  match promoteNode progress.nodes entry.1 entry.2 with
  | .error reason => { progress with skipped := progress.skipped ++ [(entry.1, reason)] }
  | .ok node =>
    { progress with
      nodes := Json.assign entry.1 node progress.nodes
      promotedNodeIds := progress.promotedNodeIds ++ [entry.1] }

structure PromotionResult where
  ir : Json
  promotedNodeIds : List String
  skipped : List (String × SkipReason)

/-- `promoteActsToDeterministic`; without a record of nodes every plan is skipped. -/
def promoteActsToDeterministic (ir : Json) (loaded : Loaded) : PromotionResult :=
  let nodes := (ir.field "nodes").bind Json.record?
  let ambiguous := loaded.ambiguousNodeIds.map fun nodeId => (nodeId, SkipReason.multiActNodeAmbiguous)
  let progress := loaded.plans.rows.foldl promoteOne ⟨nodes.getD [], [], ambiguous⟩
  { ir := if nodes.isSome then .obj (Json.assign "nodes" (.obj progress.nodes) ir.fields) else ir
    promotedNodeIds := progress.promotedNodeIds
    skipped := progress.skipped }

/-! ## What was performed -/

/-- The attempt that a plan was read from performed it on the page. -/
def Performed (db : Database) (capture : Capture) : Prop :=
  ∃ row plan, db.runSteps.get capture.id = some row ∧ row.performed = some plan ∧ aim plan = aim capture.plan

theorem mem_answersOf {db : Database} {id : AttemptKey} {answer : Json} (member : answer ∈ answersOf db id) :
    ∃ key call, db.stagehandCalls.get key = some call ∧ call.id = id ∧ call.parsedJson = some answer := by
  obtain ⟨⟨key, call⟩, listed, said⟩ := List.mem_filterMap.mp member
  obtain ⟨stored, same, -⟩ : _ ∧ call.id = id ∧ call.streamStatus = .done := by simpa using listed
  exact ⟨key, call, Table.get_eq_some_iff.mpr stored, same, said⟩

section Recordings

variable {parse : String → Option Json} {db : Database} {id : AttemptKey} {row : RunStep}

theorem performed_of_answer (attributed : Attributed parse db) (stored : db.runSteps.get id = some row)
    (success : row.status = .success) (act : row.action = "act") {answer : Json} (member : answer ∈ answersOf db id)
    {plan : ActionPlan} (parsed : parseActionPlan answer = some plan) : Performed db ⟨id, plan⟩ := by
  obtain ⟨key, call, found, here, said⟩ := mem_answersOf member
  have owns := attributed.owns stored found here
  have asks : row.asked ≠ none := by simp [owns.asked]
  obtain ⟨-, answered, -, succeeded⟩ := attributed.traced id row stored
  obtain ⟨performed, does⟩ := Option.ne_none_iff_exists'.mp (succeeded success act asks)
  obtain ⟨json, plan', heard, parsed', same⟩ := answered performed asks does
  obtain rfl := Option.some.inj (said.symm.trans (owns.said json heard))
  exact ⟨row, performed, stored, does, Option.some.inj (parsed'.symm.trans parsed) ▸ same⟩

theorem performed_of_entry (attributed : Attributed parse db) (stored : db.runSteps.get id = some row)
    {plan : ActionPlan} (parsed : (((entryOf db row).bind CacheRow.planRef).bind parse).bind parseActionPlan = some plan) :
    Performed db ⟨id, plan⟩ := by
  cases joins : entryOf db row with
  | none => simp [joins] at parsed
  | some entry =>
    rw [joins] at parsed
    obtain ⟨found, suits⟩ := Option.filter_eq_some_iff.mp joins
    obtain ⟨cacheId, hit, entered⟩ := Option.bind_eq_some_iff.mp found
    obtain ⟨-, performed, does, same⟩ := (attributed.traced id row stored).cached cacheId hit
    exact ⟨row, performed, stored, does, same entry plan entered suits parsed⟩

/-- What promotion reads of a run was performed by the step it is read from. -/
theorem performed_of_mem_captures (recorded : Recorded parse db) {runId : String} {capture : Capture}
    (member : capture ∈ captures parse db runId) : Performed db capture := by
  obtain ⟨found, listed, read⟩ := List.mem_filterMap.mp member
  obtain ⟨plan, planned, rfl⟩ := Option.map_eq_some_iff.mp read
  obtain ⟨joins, -⟩ := List.mem_filter.mp ((List.mem_insertionSort _).mp listed)
  obtain ⟨⟨id, row⟩, selected, answered⟩ := List.mem_flatMap.mp joins
  obtain ⟨stored, ⟨-, act⟩, success⟩ :
      _ ∧ (_ ∧ row.action = "act") ∧ row.status = .success := by simpa using selected
  have attributed := attributed_of_recorded recorded
  have stored := Table.get_eq_some_iff.mpr stored
  obtain ⟨answer, among, rfl⟩ := List.mem_map.mp answered
  rw [StepRow.plan] at planned
  split at planned
  · exact performed_of_entry attributed stored planned
  · exact performed_of_entry attributed stored planned
  · next said _ missed =>
    refine performed_of_answer attributed stored success act ?_ planned
    obtain rfl : answer = some said := missed
    split at among
    · simp at among
    · simpa using among

end Recordings

/-! ## What the loading loop gives -/

section Load

variable (captured : List Capture) (nodeId : String)

theorem get_assignPlans : (captured.foldl assignPlan .empty).get nodeId =
    if nodeId = "__proto__" then none else (lastOf captured nodeId).map Capture.plan := by
  induction captured using List.reverseRecOn with
  | nil => simp [lastOf]
  | append_singleton captured capture ih =>
    rw [List.foldl_concat, assignPlan, lastOf, List.reverse_concat, List.find?_cons]
    by_cases here : capture.nodeId = nodeId
    · subst here
      split <;> simp_all [Table.get_put]
    · have apart : nodeId ≠ capture.nodeId := fun same => here same.symm
      split
      · simpa [here, lastOf] using ih
      · simpa [here, apart, lastOf, Table.get_put] using ih

theorem mem_of_lastOf {captured : List Capture} {nodeId : String} {capture : Capture}
    (last : lastOf captured nodeId = some capture) : capture ∈ captured ∧ capture.nodeId = nodeId := by
  have found := List.find?_some last
  exact ⟨List.mem_reverse.mp (List.mem_of_find?_eq_some last), by simpa using found⟩

theorem exists_lastOf {captured : List Capture} {capture : Capture} (member : capture ∈ captured) :
    ∃ last, lastOf captured capture.nodeId = some last := by
  refine Option.isSome_iff_exists.mp (List.find?_isSome.mpr ⟨capture, List.mem_reverse.mpr member, ?_⟩)
  simp

theorem index_mem_stepIds {captured : List Capture} {capture : Capture} (member : capture ∈ captured) :
    capture.index ∈ stepIds captured capture.nodeId := by
  simp only [stepIds, List.mem_toFinset, List.mem_map, List.mem_filter]
  exact ⟨capture, ⟨member, by simp⟩, rfl⟩

theorem get_plans_iff {plan : ActionPlan} : (load captured).plans.get nodeId = some plan ↔
    nodeId ≠ "__proto__" ∧ (stepIds captured nodeId).card ≤ 1 ∧
      ∃ last, lastOf captured nodeId = some last ∧ last.plan = plan := by
  rw [load, Table.get_filter, Option.filter_eq_some_iff, get_assignPlans]
  by_cases proto : nodeId = "__proto__"
  · simp [proto]
  · simp only [proto, if_false, Option.map_eq_some_iff, decide_eq_true_eq, ne_eq, not_false_iff, true_and]
    exact and_comm

/-- A captured node has a plan to promote or is ambiguous, unless it is called `__proto__`. -/
theorem loaded_iff {captured : List Capture} {capture : Capture} (member : capture ∈ captured) :
    capture.nodeId ∈ (load captured).ambiguousNodeIds ∨ capture.nodeId ∈ (load captured).plans.rows.map Prod.fst ↔
      (capture.nodeId = "__proto__" → 1 < (stepIds captured "__proto__").card) := by
  have ambiguous : capture.nodeId ∈ (load captured).ambiguousNodeIds ↔ 1 < (stepIds captured capture.nodeId).card := by
    simp only [load, List.mem_filter, List.mem_eraseDups, decide_eq_true_eq]
    exact and_iff_right (List.mem_map_of_mem member)
  have planned : capture.nodeId ∈ (load captured).plans.rows.map Prod.fst ↔
      capture.nodeId ≠ "__proto__" ∧ (stepIds captured capture.nodeId).card ≤ 1 := by
    rw [← not_iff_not, ← Table.get_eq_none_iff, Option.eq_none_iff_forall_ne_some]
    obtain ⟨last, found⟩ := exists_lastOf member
    simp only [ne_eq, get_plans_iff, found]
    constructor
    · intro absent listed
      exact absent last.plan ⟨listed.1, listed.2, last, rfl, rfl⟩
    · rintro unlisted plan ⟨other, single, -⟩
      exact unlisted ⟨other, single⟩
  rw [ambiguous, planned]
  by_cases proto : capture.nodeId = "__proto__"
  · simp [proto]
  · simp only [proto, ne_eq, not_false_iff, true_and, false_implies, iff_true]
    exact lt_or_ge _ _

end Load

/-! ## What the loop over the plans does -/

/-- A node after its round. -/
def settled (nodes : List (String × Json)) (nodeId : String) (plan : ActionPlan) : Option Json :=
  match promoteNode nodes nodeId plan with
  | .ok node => some node
  | .error _ => Json.lookup nodeId nodes

theorem promoteNode_congr {nodes others : List (String × Json)} {nodeId : String} (plan : ActionPlan)
    (same : Json.lookup nodeId nodes = Json.lookup nodeId others) :
    promoteNode nodes nodeId plan = promoteNode others nodeId plan := by
  rw [promoteNode, promoteNode, same]

theorem lookup_promoteOne (progress : Progress) (entry : String × ActionPlan) (nodeId : String) :
    Json.lookup nodeId (promoteOne progress entry).nodes =
      if nodeId = entry.1 then settled progress.nodes entry.1 entry.2 else Json.lookup nodeId progress.nodes := by
  rw [promoteOne, settled]
  cases promoteNode progress.nodes entry.1 entry.2 with
  | error reason =>
    by_cases same : nodeId = entry.1
    · simp [same]
    · simp [same]
  | ok node => simp only [Json.lookup_assign]

theorem lookup_foldl_promoteOne {plans : List (String × ActionPlan)} (distinct : (plans.map Prod.fst).Nodup)
    (progress : Progress) (nodeId : String) :
    (nodeId ∉ plans.map Prod.fst →
      Json.lookup nodeId (plans.foldl promoteOne progress).nodes = Json.lookup nodeId progress.nodes) ∧
    ∀ plan, (nodeId, plan) ∈ plans →
      Json.lookup nodeId (plans.foldl promoteOne progress).nodes = settled progress.nodes nodeId plan := by
  induction plans generalizing progress with
  | nil => exact ⟨fun _ => rfl, fun plan member => absurd member List.not_mem_nil⟩
  | cons entry rest ih =>
    rw [List.map_cons, List.nodup_cons] at distinct
    obtain ⟨untouched, touched⟩ := ih distinct.2 (promoteOne progress entry)
    rw [List.foldl_cons]
    refine ⟨fun absent => ?_, fun plan member => ?_⟩
    · rw [List.map_cons, List.mem_cons, not_or] at absent
      rw [untouched absent.2, lookup_promoteOne, if_neg absent.1]
    · rcases List.mem_cons.mp member with rfl | later
      · rw [untouched distinct.1, lookup_promoteOne, if_pos rfl]
      · -- The rounds before did not reach this node.
        have other : nodeId ≠ entry.1 := fun same =>
          distinct.1 (same ▸ List.mem_map.mpr ⟨(nodeId, plan), later, rfl⟩)
        have same : Json.lookup nodeId (promoteOne progress entry).nodes = Json.lookup nodeId progress.nodes := by
          rw [lookup_promoteOne, if_neg other]
        rw [touched plan later, settled, settled, promoteNode_congr plan same, same]

/-- A node is promoted or skipped for a reason. -/
def Lists (promotedNodeIds : List String) (skipped : List (String × SkipReason)) (nodeId : String) : Prop :=
  nodeId ∈ promotedNodeIds ∨ ∃ reason, (nodeId, reason) ∈ skipped

theorem lists_foldl_promoteOne (plans : List (String × ActionPlan)) (progress : Progress) (nodeId : String) :
    Lists (plans.foldl promoteOne progress).promotedNodeIds (plans.foldl promoteOne progress).skipped nodeId ↔
      Lists progress.promotedNodeIds progress.skipped nodeId ∨ nodeId ∈ plans.map Prod.fst := by
  induction plans generalizing progress with
  | nil => simp
  | cons entry rest ih =>
    have one : Lists (promoteOne progress entry).promotedNodeIds (promoteOne progress entry).skipped nodeId ↔
        Lists progress.promotedNodeIds progress.skipped nodeId ∨ nodeId = entry.1 := by
      rw [promoteOne]
      cases promoteNode progress.nodes entry.1 entry.2 with
      | error reason => simp [Lists, exists_or, or_assoc]
      | ok node => simp [Lists, or_right_comm]
    rw [List.foldl_cons, ih, one, List.map_cons, List.mem_cons, or_assoc]

/-! ## Soundness -/

def nodeOf (ir : Json) (nodeId : String) : Option Json :=
  ((ir.field "nodes").bind Json.record?).bind (Json.lookup nodeId)

/-- A value without some of its fields. -/
def without (names : List String) : Json → Json
  | .obj fields => .obj (fields.filter fun entry => entry.1 ∉ names)
  | value => value

/-- Of the arguments at an index nothing is lost but what the plan writes. -/
def ArgsKept (what : List Json) (index : Nat) (plan : ActionPlan) : Prop :=
  ∀ step args, what[index]? = some step → argsOf step = some args →
    without ((additions plan).map Prod.fst) (writeArgs plan step) = without ((additions plan).map Prod.fst) args

/-- Nothing but nodes changes; a node changes only by a plan written into the act whose step performed
it; and every captured node is promoted or listed. -/
structure IsSound (db : Database) (captured : List Capture) (ir : Json) (result : PromotionResult) : Prop where
  outside : ∀ key, key ≠ "nodes" → result.ir.field key = ir.field key
  nodes : ∀ nodeId, nodeOf result.ir nodeId = nodeOf ir nodeId ∨
    ∃ capture node what, capture ∈ captured ∧ capture.nodeId = nodeId ∧ Performed db capture ∧
      nodeOf ir nodeId = some node ∧ whatOf node = some what ∧ ArgsKept what capture.index capture.plan ∧
      nodeOf result.ir nodeId = some (writeAt capture.index capture.plan what node)
  noNodes : (ir.field "nodes").bind Json.record? = none → result.ir = ir
  listed : ∀ capture ∈ captured, Lists result.promotedNodeIds result.skipped capture.nodeId

/-- No node called `__proto__` has its plans from one step; and of every other such node the act chosen for
the last plan is at the index of that step, with arguments that are absent or a record. -/
structure ChoosesRecorded (captured : List Capture) (ir : Json) : Prop where
  named : ∀ capture ∈ captured, capture.nodeId = "__proto__" → 1 < (stepIds captured "__proto__").card
  chosen : ∀ nodeId last, nodeId ≠ "__proto__" → (stepIds captured nodeId).card ≤ 1 →
    lastOf captured nodeId = some last → ∀ node what index, nodeOf ir nodeId = some node → whatOf node = some what →
      chooseAct what last.plan = .ok index → index = last.index ∧
        ∀ step args, what[index]? = some step → argsOf step = some args → args.record?.isSome

theorem filter_assign {names : List String} {key : String} (named : key ∈ names) (value : Json)
    (fields : List (String × Json)) :
    (Json.assign key value fields).filter (fun entry => entry.1 ∉ names) = fields.filter fun entry => entry.1 ∉ names := by
  induction fields with
  | nil => simp [Json.assign, named]
  | cons entry rest ih =>
    rw [Json.assign]
    split
    next same => simp [same, named]
    next => simp only [List.filter_cons, ih]

theorem filter_foldl_assign {names : List String} {entries : List (String × Json)}
    (named : ∀ entry ∈ entries, entry.1 ∈ names) (fields : List (String × Json)) :
    (entries.foldl (fun out entry => Json.assign entry.1 entry.2 out) fields).filter (fun entry => entry.1 ∉ names) =
      fields.filter fun entry => entry.1 ∉ names := by
  induction entries generalizing fields with
  | nil => rfl
  | cons entry rest ih =>
    rw [List.foldl_cons, ih fun other member => named other (List.mem_cons_of_mem _ member),
      filter_assign (named entry List.mem_cons_self)]

theorem argsKept_iff {what : List Json} {index : Nat} {plan : ActionPlan} : ArgsKept what index plan ↔
    ∀ step args, what[index]? = some step → argsOf step = some args → args.record?.isSome := by
  refine forall₄_congr fun step args _ found => ?_
  rw [writeArgs, found, Option.bind_some]
  cases args with
  | obj fields =>
    simp only [Json.record?, Option.getD_some, Option.isSome_some, iff_true, without]
    rw [filter_foldl_assign fun entry => List.mem_map_of_mem]
  | _ => simp [without, Json.record?]

theorem promoteNode_ok {nodes : List (String × Json)} {nodeId : String} {plan : ActionPlan} {node' : Json} :
    promoteNode nodes nodeId plan = .ok node' ↔
      ∃ node what index, Json.lookup nodeId nodes = some node ∧ whatOf node = some what ∧
        chooseAct what plan = .ok index ∧ node' = writeAt index plan what node := by
  rw [promoteNode]
  cases found : Json.lookup nodeId nodes with
  | none => simp
  | some node =>
    cases whats : whatOf node with
    | none =>
      cases record : node.record? <;> simp [record, whats]
    | some what =>
      have record : ∃ fields, node.record? = some fields := by
        cases node with
        | obj fields => exact ⟨fields, rfl⟩
        | _ => simp [whatOf, Json.field, Json.fields, Json.record?, Json.lookup] at whats
      obtain ⟨fields, record⟩ := record
      cases choice : chooseAct what plan with
      | error reason => simp [record, whats, choice, Except.map]
      | ok index =>
        simp only [Option.bind_some, record, Option.map_some, whats, choice, Except.map, Except.ok.injEq,
          Option.some.injEq]
        constructor
        · rintro rfl
          exact ⟨node, what, index, rfl, whats, choice, rfl⟩
        · rintro ⟨_, _, _, rfl, whats', choice', rfl⟩
          obtain rfl := Option.some.inj (whats.symm.trans whats')
          obtain rfl := Except.ok.inj (choice.symm.trans choice')
          rfl

def selectorKey : ActionPlan → String
  | .click _ => "click_selector"
  | .fill _ _ _ => "fill_selector"
  | .select _ _ => "select_selector"

theorem hasTextArg_writeStep (plan : ActionPlan) (step : Json) :
    hasTextArg (writeStep plan step) (selectorKey plan) = true := by
  cases plan <;>
    simp [hasTextArg, argsOf, writeStep, writeArgs, additions, selectorKey, Json.field, Json.fields, Json.record?,
      Json.lookup_assign, Json.text?]

/-- The chosen act does not have the selector yet. -/
theorem chooseAct_lacks {what : List Json} {plan : ActionPlan} {index : Nat} (chosen : chooseAct what plan = .ok index) :
    ∃ step, what[index]? = some step ∧ hasTextArg step (selectorKey plan) = false := by
  have first : ∀ {suits : Json → Bool} {found : Nat}, what.findIdx? suits = some found →
      ∃ step, what[found]? = some step ∧ suits step = true := by
    intro suits found search
    obtain ⟨short, suited, -⟩ := List.findIdx?_eq_some_iff_getElem.mp search
    exact ⟨what[found], List.getElem?_eq_getElem short, suited⟩
  cases plan with
  | click | select =>
    rw [chooseAct] at chosen
    split at chosen
    next found search =>
      cases chosen
      obtain ⟨step, at_, suits⟩ := first search
      exact ⟨step, at_, by simpa [selectorKey] using (Bool.and_eq_true_iff.mp suits).2⟩
    next => cases chosen
  | fill =>
    rw [chooseAct] at chosen
    split at chosen
    next => cases chosen
    next found search =>
      split at chosen
      next => cases chosen
      next free =>
        cases chosen
        obtain ⟨step, at_, -⟩ := first search
        exact ⟨step, at_, by simpa [at_, selectorKey] using free⟩

theorem modify_unlike {what : List Json} {plan : ActionPlan} {index : Nat} (chosen : chooseAct what plan = .ok index)
    {others : List Json} (same : what.modify index (writeStep plan) = others) : others[index]? ≠ what[index]? := by
  obtain ⟨step, at_, lacks⟩ := chooseAct_lacks chosen
  rw [← same, List.getElem?_modify_eq, at_]
  intro unchanged
  have has := hasTextArg_writeStep plan step
  rw [Option.some.inj unchanged, lacks] at has
  cases has

theorem whatOf_writeAt (index : Nat) (plan : ActionPlan) (what : List Json) (node : Json) :
    whatOf (writeAt index plan what node) = some (what.modify index (writeStep plan)) := by
  simp [whatOf, writeAt, Json.field, Json.fields, Json.record?, Json.lookup_assign, Json.items?]

section Result

variable {parse : String → Option Json} {captured : List Capture} {ir : Json} {nodes : List (String × Json)}

theorem nodeOf_promote (record : (ir.field "nodes").bind Json.record? = some nodes) (loaded : Loaded) (nodeId : String) :
    nodeOf (promoteActsToDeterministic ir loaded).ir nodeId =
      match loaded.plans.get nodeId with
      | none => nodeOf ir nodeId
      | some plan => settled nodes nodeId plan := by
  have before : nodeOf ir nodeId = Json.lookup nodeId nodes := by rw [nodeOf, record, Option.bind_some]
  obtain ⟨untouched, touched⟩ := lookup_foldl_promoteOne loaded.plans.nodup
    ⟨nodes, [], loaded.ambiguousNodeIds.map fun name => (name, SkipReason.multiActNodeAmbiguous)⟩ nodeId
  have after : nodeOf (promoteActsToDeterministic ir loaded).ir nodeId =
      Json.lookup nodeId (loaded.plans.rows.foldl promoteOne
        ⟨nodes, [], loaded.ambiguousNodeIds.map fun name => (name, SkipReason.multiActNodeAmbiguous)⟩).nodes := by
    simp only [nodeOf, promoteActsToDeterministic, record, Option.isSome_some, if_true, Option.getD_some]
    simp [Json.field, Json.fields, Json.record?, Json.lookup_assign]
  rw [after, before]
  split
  next absent => exact untouched (Table.get_eq_none_iff.mp absent)
  next plan found => exact touched plan (Table.get_eq_some_iff.mp found)

theorem promote_outside (loaded : Loaded) {key : String} (other : key ≠ "nodes") :
    (promoteActsToDeterministic ir loaded).ir.field key = ir.field key := by
  rw [promoteActsToDeterministic]
  cases (ir.field "nodes").bind Json.record? with
  | none => rfl
  | some nodes => simp [Json.field, Json.fields, Json.record?, Json.lookup_assign, other]

theorem promote_lists (loaded : Loaded) (nodeId : String) :
    Lists (promoteActsToDeterministic ir loaded).promotedNodeIds (promoteActsToDeterministic ir loaded).skipped nodeId ↔
      nodeId ∈ loaded.ambiguousNodeIds ∨ nodeId ∈ loaded.plans.rows.map Prod.fst := by
  simp only [promoteActsToDeterministic, lists_foldl_promoteOne]
  simp [Lists]

/-- The node is changed exactly at the act that is chosen. -/
theorem index_eq_of_written {what : List Json} {node : Json} {index other : Nat} {plan plan' : ActionPlan}
    (chosen : chooseAct what plan = .ok index)
    (written : writeAt index plan what node = writeAt other plan' what node) : index = other := by
  have lists : what.modify index (writeStep plan) = what.modify other (writeStep plan') := by
    have read := whatOf_writeAt index plan what node
    rw [written, whatOf_writeAt] at read
    exact (Option.some.inj read).symm
  by_contra apart
  refine modify_unlike chosen lists ?_
  simp [Ne.symm apart]

theorem writeAt_ne {what : List Json} {node : Json} {index : Nat} {plan : ActionPlan} (whats : whatOf node = some what)
    (chosen : chooseAct what plan = .ok index) : writeAt index plan what node ≠ node := by
  intro same
  have read := whatOf_writeAt index plan what node
  rw [same, whats] at read
  exact absurd rfl (modify_unlike chosen (Option.some.inj read).symm)

/-- Promotion of a recorded run is sound exactly when the acts chosen are the acts the plans were recorded at. -/
theorem promotion_sound_iff {db : Database} (recorded : Recorded parse db) (runId : String) (ir : Json) :
    IsSound db (captures parse db runId) ir (promoteActsToDeterministic ir (loadRunActionPlans parse db runId)) ↔
      ChoosesRecorded (captures parse db runId) ir := by
  have performed : ∀ capture ∈ captures parse db runId, Performed db capture :=
    fun capture => performed_of_mem_captures recorded
  rw [loadRunActionPlans]
  generalize captures parse db runId = captured at performed
  have lists : (∀ capture ∈ captured, Lists (promoteActsToDeterministic ir (load captured)).promotedNodeIds
      (promoteActsToDeterministic ir (load captured)).skipped capture.nodeId) ↔
      ∀ capture ∈ captured, capture.nodeId = "__proto__" → 1 < (stepIds captured "__proto__").card :=
    forall₂_congr fun capture member => (promote_lists _ _).trans (loaded_iff member)
  constructor
  · intro sound
    refine ⟨lists.mp sound.listed, fun nodeId last proto single latest node what index found whats chosen => ?_⟩
    obtain ⟨nodes, record, stored⟩ := Option.bind_eq_some_iff.mp found
    have planned := (get_plans_iff captured nodeId).mpr ⟨proto, single, last, latest, rfl⟩
    have after : nodeOf (promoteActsToDeterministic ir (load captured)).ir nodeId =
        some (writeAt index last.plan what node) := by
      simp only [nodeOf_promote record, planned, settled,
        promoteNode_ok.mpr ⟨node, what, index, stored, whats, chosen, rfl⟩]
    rcases sound.nodes nodeId with same | ⟨capture, node', what', member, here, -, found', whats', kept, written⟩
    · -- The node did change: the chosen act had no selector before.
      rw [after, found] at same
      exact absurd (Option.some.inj same) (writeAt_ne whats chosen)
    · obtain rfl := Option.some.inj (found.symm.trans found')
      obtain rfl := Option.some.inj (whats.symm.trans whats')
      have index_eq := index_eq_of_written chosen (Option.some.inj (after.symm.trans written))
      -- All the plans of the node come from one step.
      obtain ⟨among, named⟩ := mem_of_lastOf latest
      have only : capture.index = last.index :=
        Finset.card_le_one.mp single _ (here ▸ index_mem_stepIds member) _ (named ▸ index_mem_stepIds among)
      exact ⟨index_eq.trans only, index_eq ▸ argsKept_iff.mp kept⟩
  · intro chooses
    refine ⟨fun key => promote_outside _, fun nodeId => ?_, fun none => ?_, lists.mpr chooses.named⟩
    · cases record : (ir.field "nodes").bind Json.record? with
      | none =>
        have same : (promoteActsToDeterministic ir (load captured)).ir = ir := by
          simp [promoteActsToDeterministic, record]
        exact .inl (by rw [same])
      | some nodes =>
        rw [nodeOf_promote record]
        cases planned : (load captured).plans.get nodeId with
        | none => exact .inl rfl
        | some plan =>
          obtain ⟨proto, single, last, latest, rfl⟩ := (get_plans_iff captured nodeId).mp planned
          have before : nodeOf ir nodeId = Json.lookup nodeId nodes := by rw [nodeOf, record, Option.bind_some]
          cases outcome : promoteNode nodes nodeId last.plan with
          | error reason => exact .inl (by simp only [settled, outcome, before])
          | ok node' =>
            obtain ⟨node, what, index, stored, whats, chosen, rfl⟩ := promoteNode_ok.mp outcome
            obtain ⟨rfl, kept⟩ := chooses.chosen nodeId last proto single latest node what index
              (before.trans stored) whats chosen
            obtain ⟨member, here⟩ := mem_of_lastOf latest
            exact .inr ⟨last, node, what, member, here, performed last member, before.trans stored, whats,
              argsKept_iff.mpr kept, by simp only [settled, outcome]⟩
    · simp [promoteActsToDeterministic, none]

end Result

/-! ## A click given to the fill before it -/

/-- A fill with its selector and a reference to its value, then a click left to the model. -/
def loginSteps : List Json :=
  [.obj [("action", .str "act"), ("args", .obj [("fill_selector", .str "#user"), ("value_ref", .str "params.user")])],
    .obj [("action", .str "act"), ("instruction", .str "press login")]]

def loginNode : Json := .obj [("what", .arr loginSteps)]

def loginIr : Json := .obj [("nodes", .obj [("login", loginNode)])]

def login (index : Nat) : AttemptKey := (⟨"run-1", "login", index⟩, 0)

def goPlan : Json := .obj [("operation", .str "click"), ("selector", .str "#go")]

/-- The run: only the click asked the model for a plan. -/
def loginDb : Database where
  runSteps := ⟨[(login 0, ⟨"act", .success, 1, none, none, none, some (.fill "#user" (some "ada") none)⟩),
    (login 1, ⟨"act", .success, 2, none, some "key-1", some goPlan, some (.click "#go")⟩)], by decide⟩
  stagehandCalls := ⟨[("key-1", ⟨login 1, .done, some goPlan, false⟩)], by decide⟩
  actionPlanCache := .empty

theorem loginDb_recorded : Recorded (fun _ => none) loginDb := by
  have one := Relation.ReflTransGen.single (@Step.begin (fun _ => none) ⟨.empty, .empty, .empty⟩ (login 0).1 "act" 1)
  have two := one.tail (@Step.declared _ _ (login 0) ⟨"act", .started, 1, none, none, none, none⟩
    (.fill "#user" (some "ada") none) ⟨rfl, rfl, rfl⟩ rfl)
  have three := two.tail (@Step.record _ _ (login 0)
    ⟨"act", .started, 1, none, none, none, some (.fill "#user" (some "ada") none)⟩ .success rfl rfl
    fun _ _ asked => absurd rfl asked)
  have four := three.tail (.begin (login 1).1 "act" 2)
  have five := four.tail (@Step.insert _ _ (login 1) ⟨"act", .started, 2, none, none, none, none⟩ "key-1"
    ⟨rfl, rfl, rfl⟩ rfl rfl)
  have six := five.tail (@Step.complete _ _ (login 1) ⟨"act", .started, 2, none, some "key-1", none, none⟩ "key-1"
    ⟨login 1, .opened, none, false⟩ (some goPlan) ⟨rfl, rfl, rfl⟩ rfl rfl rfl)
  have seven := six.tail (@Step.perform _ _ (login 1) ⟨"act", .started, 2, none, some "key-1", some goPlan, none⟩ goPlan
    (.click "#go") .planned (.click "#go") ⟨rfl, rfl, rfl⟩ rfl rfl rfl)
  exact seven.tail (@Step.record _ _ (login 1)
    ⟨"act", .started, 2, none, some "key-1", some goPlan, some (.click "#go")⟩ .success rfl rfl
    fun _ _ _ => Option.some_ne_none _)

def loginCaptures : List Capture := captures (fun _ => none) loginDb "run-1"

def loginResult : PromotionResult :=
  promoteActsToDeterministic loginIr (loadRunActionPlans (fun _ => none) loginDb "run-1")

theorem promotion_sound_iff_login : Recorded (fun _ => none) loginDb ∧
    (IsSound loginDb loginCaptures loginIr loginResult ↔ ChoosesRecorded loginCaptures loginIr) :=
  ⟨loginDb_recorded, promotion_sound_iff loginDb_recorded "run-1" loginIr⟩

theorem click_written_into_fill :
    Recorded (fun _ => none) loginDb ∧ ¬IsSound loginDb loginCaptures loginIr loginResult := by
  refine ⟨loginDb_recorded, fun sound => ?_⟩
  have captured : loginCaptures = [⟨login 1, .click "#go"⟩] := by decide +kernel
  rcases sound.nodes "login" with same | ⟨capture, node, what, member, -, -, found, whats, -, written⟩
  · exact absurd same (by decide +kernel)
  · rw [captured] at member
    cases List.mem_singleton.mp member
    obtain rfl : loginNode = node := Option.some.inj ((by decide +kernel : nodeOf loginIr "login" = _).symm.trans found)
    obtain rfl : loginSteps = what := Option.some.inj ((by decide +kernel : whatOf loginNode = _).symm.trans whats)
    exact absurd written (by decide +kernel)

end RpaEnterprise.Api.Promotion
