import Mathlib.Data.List.Dedup
import Mathlib.Data.List.Infix
import Mathlib.Data.List.Perm.Subperm
import RpaEnterprise.Executor.Page

/-!
# What the page parts of a step promise

Row anchors join the rows of an extract to the page: a row is kept with the one
value that all anchors of its key give, and unless partial coverage was asked
for no anchor of the page is lost.

A rich body fill waits until the body of the editor shows the text it inserted,
and looks for the first 24 characters of it only.
-/

namespace RpaEnterprise.Executor

open Lib

/-! ## Row anchors -/

section RowAnchors

variable (deps : Deps) (anchor : ExtractRowAnchor)

/-- The key of an anchor on the page and the value its template gives, unless it
cannot be resolved. -/
def resolved (pair : Json) : Option (String × String) := do
  let id ← anchorId deps anchor pair
  let key := norm (pair.field "k")
  if key = "" then none else some (key, anchorValue anchor id)

/-- The row with the value that all resolvable anchors of its key have. -/
def Fills (pairs : List Json) (row kept : Json) : Prop :=
  ∃ fields value, ownMembers row = some fields ∧
    kept = .obj (Json.assign anchor.field (.str value) fields) ∧
    (∃ pair ∈ pairs, resolved deps anchor pair = some (rowKey anchor fields, value)) ∧
    ∀ pair ∈ pairs, ∀ other, resolved deps anchor pair = some (rowKey anchor fields, other) → other = value

/-- Every anchor is resolvable, has one value and is the anchor of a row. -/
def Covers (pairs chosen : List Json) : Prop :=
  ∀ pair ∈ pairs, ∃ key value, resolved deps anchor pair = some (key, value) ∧
    (∀ other ∈ pairs, ∀ value', resolved deps anchor other = some (key, value') → value' = value) ∧
    ∃ row ∈ chosen, ∃ fields, ownMembers row = some fields ∧ rowKey anchor fields = key

/-- The page answers the script that reads the anchors with these pairs. -/
def ShowsAnchors (pairs : List Json) : (question : PageAsk) → question.Reply → Prop
  | .evaluate (.rowAnchors _ _ _), reply => reply = .ok (.arr pairs)
  | _, _ => True

variable {deps anchor}

/-- What is known after some anchors. -/
structure Anchors.Reads (deps : Deps) (anchor : ExtractRowAnchor) (pairs : List Json)
    (anchors : Anchors) : Prop where
  once : (anchors.byKey.map Prod.fst).Nodup
  sound : ∀ entry ∈ anchors.byKey, ∃ pair ∈ pairs, resolved deps anchor pair = some entry
  complete : ∀ pair ∈ pairs, ∀ key value, resolved deps anchor pair = some (key, value) →
    (key, value) ∈ anchors.byKey ∨ key ∈ anchors.ambiguous
  lost : anchors.unresolvable = 0 → ∀ pair ∈ pairs, (resolved deps anchor pair).isSome = true

theorem Anchors.get_eq_some {anchors : Anchors} {key value : String}
    (found : anchors.get key = some value) : (key, value) ∈ anchors.byKey := by
  unfold Anchors.get at found
  obtain ⟨entry, here, rfl⟩ := Option.map_eq_some_iff.mp found
  have named := List.find?_some here
  obtain rfl : entry.1 = key := of_decide_eq_true named
  exact List.mem_of_find?_eq_some here

theorem Anchors.get_eq_none {anchors : Anchors} {key : String} (absent : anchors.get key = none) :
    key ∉ anchors.byKey.map Prod.fst := by
  unfold Anchors.get at absent
  rw [Option.map_eq_none_iff, List.find?_eq_none] at absent
  intro member
  obtain ⟨entry, listed, rfl⟩ := List.mem_map.mp member
  exact absent entry listed (decide_eq_true rfl)

theorem collectAnchor_eq (anchors : Anchors) (pair : Json) :
    collectAnchor deps anchor anchors pair =
      match resolved deps anchor pair with
      | none => anchors.lose
      | some (key, value) => anchors.add key value := by
  unfold collectAnchor resolved
  cases anchorId deps anchor pair with
  | none => rfl
  | some id =>
    dsimp only [Option.bind_eq_bind, Option.bind_some]
    split <;> rfl

theorem Anchors.Reads.mono {pairs : List Json} {pair : Json} {anchors : Anchors}
    (reads : anchors.Reads deps anchor pairs) {entry : String × String} (listed : entry ∈ anchors.byKey) :
    ∃ known ∈ pairs ++ [pair], resolved deps anchor known = some entry := by
  obtain ⟨known, member, here⟩ := reads.sound entry listed
  exact ⟨known, List.mem_append_left _ member, here⟩

/-- One more anchor. -/
theorem Anchors.Reads.collect {pairs : List Json} {anchors : Anchors}
    (reads : anchors.Reads deps anchor pairs) (pair : Json) :
    (collectAnchor deps anchor anchors pair).Reads deps anchor (pairs ++ [pair]) := by
  rw [collectAnchor_eq]
  cases read : resolved deps anchor pair with
  | none =>
    refine ⟨reads.once, fun entry => reads.mono, fun known member key value here => ?_, fun none => ?_⟩
    · rcases List.mem_append.mp member with old | new
      · exact reads.complete known old key value here
      · rw [List.mem_singleton.mp new, read] at here
        cases here
    · cases none
  | some entry =>
    obtain ⟨key, value⟩ := entry
    have lost : anchors.unresolvable = 0 →
        ∀ known ∈ pairs ++ [pair], (resolved deps anchor known).isSome = true := by
      intro none known member
      rcases List.mem_append.mp member with old | new
      · exact reads.lost none known old
      · rw [List.mem_singleton.mp new, read]
        rfl
    dsimp only [Anchors.add]
    cases prior : anchors.get key with
    | none =>
      dsimp only
      refine ⟨?_, fun entry member => ?_, fun known member key' value' here => ?_, lost⟩
      · rw [List.map_append, List.nodup_append]
        refine ⟨reads.once, List.nodup_singleton _, fun old among new is => ?_⟩
        obtain rfl : new = key := List.mem_singleton.mp is
        rintro rfl
        exact Anchors.get_eq_none prior among
      · rcases List.mem_append.mp member with old | new
        · exact reads.mono old
        · exact ⟨pair, by simp, read.trans (congrArg some (List.mem_singleton.mp new).symm)⟩
      · rcases List.mem_append.mp member with old | new
        · exact (reads.complete known old key' value' here).imp_left (List.mem_append_left _)
        · rw [List.mem_singleton.mp new, read] at here
          exact .inl (List.mem_append_right _ (by simpa using here.symm))
    | some first =>
      dsimp only
      split
      · rename_i same
        refine ⟨reads.once, fun entry => reads.mono, fun known member key' value' here => ?_, lost⟩
        rcases List.mem_append.mp member with old | new
        · exact reads.complete known old key' value' here
        · rw [List.mem_singleton.mp new, read] at here
          obtain ⟨rfl, rfl⟩ := Prod.mk.inj (Option.some.inj here)
          exact .inl (same ▸ Anchors.get_eq_some prior)
      · refine ⟨reads.once, fun entry => reads.mono, fun known member key' value' here => ?_, lost⟩
        rcases List.mem_append.mp member with old | new
        · exact (reads.complete known old key' value' here).imp_right
            fun among => List.mem_insert_of_mem among
        · rw [List.mem_singleton.mp new, read] at here
          obtain ⟨rfl, rfl⟩ := Prod.mk.inj (Option.some.inj here)
          exact .inr List.mem_insert_self

theorem reads_foldl (pairs : List Json) :
    (pairs.foldl (collectAnchor deps anchor) {}).Reads deps anchor pairs := by
  have all : ∀ (later done : List Json) (anchors : Anchors), anchors.Reads deps anchor done →
      (later.foldl (collectAnchor deps anchor) anchors).Reads deps anchor (done ++ later) := by
    intro later
    induction later with
    | nil => simp
    | cons pair rest ih =>
      intro done anchors reads
      rw [List.foldl_cons, ← List.singleton_append, ← List.append_assoc]
      exact ih _ _ (reads.collect pair)
  exact all pairs [] {} ⟨List.nodup_nil, by simp, by simp, by simp⟩

/-- The rows that are kept, in their order, and what is kept of them. -/
theorem filterMap_chosen {Row Kept : Type} (keep : Row → Option Kept) (rows : List Row) :
    ∃ chosen : List Row, chosen.Sublist rows ∧
      List.Forall₂ (fun row kept => keep row = some kept) chosen (rows.filterMap keep) ∧
      ∀ kept ∈ rows.filterMap keep, ∃ row ∈ chosen, keep row = some kept := by
  induction rows with
  | nil => exact ⟨[], .slnil, .nil, by simp⟩
  | cons row rest ih =>
    obtain ⟨chosen, listed, matched, sources⟩ := ih
    cases kept : keep row with
    | none =>
      rw [List.filterMap_cons_none kept]
      exact ⟨chosen, listed.cons row, matched, sources⟩
    | some value =>
      rw [List.filterMap_cons_some kept]
      refine ⟨row :: chosen, listed.cons_cons row, .cons kept matched, fun other member => ?_⟩
      rcases List.mem_cons.mp member with rfl | later
      · exact ⟨row, List.mem_cons_self, kept⟩
      · obtain ⟨source, among, here⟩ := sources other later
        exact ⟨source, List.mem_cons_of_mem _ among, here⟩

/-- The anchors without the ambiguous keys. -/
theorem Anchors.Reads.usable {pairs : List Json} {found : Anchors} (reads : found.Reads deps anchor pairs)
    {key value : String}
    (got : Anchors.get { found with byKey := found.byKey.filter fun entry => entry.1 ∉ found.ambiguous } key =
      some value) :
    key ∉ found.ambiguous ∧ (∃ pair ∈ pairs, resolved deps anchor pair = some (key, value)) ∧
      ∀ pair ∈ pairs, ∀ other, resolved deps anchor pair = some (key, other) → other = value := by
  obtain ⟨listed, plain⟩ := List.mem_filter.mp (Anchors.get_eq_some got)
  have unambiguous : key ∉ found.ambiguous := of_decide_eq_true plain
  refine ⟨unambiguous, reads.sound _ listed, fun pair member other here => ?_⟩
  rcases reads.complete pair member key other here with among | ambiguous
  · exact congrArg Prod.snd (List.inj_on_of_nodup_map reads.once among listed rfl)
  · exact absurd ambiguous unambiguous

theorem keepRow_eq_some {usable : Anchors} {row : Json} {kept : String × Json}
    (keeps : keepRow anchor usable row = some kept) :
    ∃ fields value, ownMembers row = some fields ∧ kept.1 = rowKey anchor fields ∧
      usable.get (rowKey anchor fields) = some value ∧
      kept.2 = .obj (Json.assign anchor.field (.str value) fields) := by
  unfold keepRow at keeps
  simp only [Option.bind_eq_bind, Option.bind_eq_some_iff, Option.pure_def] at keeps
  obtain ⟨fields, own, keeps⟩ := keeps
  split at keeps
  · cases keeps
  · obtain ⟨value, got, is⟩ := Option.bind_eq_some_iff.mp keeps
    obtain rfl := Option.some.inj is
    exact ⟨fields, value, own, rfl, got, rfl⟩

/-- With no anchor lost, every key of an anchor is the key of a row. -/
theorem keys_covered {usable taken : List String}
    (within : taken ⊆ usable) (none : usable.length - taken.dedup.length = 0) : usable ⊆ taken := by
  have below : taken.dedup.Subperm usable :=
    taken.nodup_dedup.subperm fun key member => within (List.mem_dedup.mp member)
  have perm := below.perm_of_length_le (Nat.sub_eq_zero_iff_le.mp none)
  exact fun key member => List.mem_dedup.mp (perm.mem_iff.mpr member)

/-- What a join that goes through has done. -/
theorem anchorRows_ok {stepId : String} {fields : List (String × Json)} {rows pairs : List Json}
    {result : Json} (ends : anchorRows deps stepId anchor fields rows pairs = .ok result) :
    ∃ chosen kept, result = .obj (Json.assign "rows" (.arr kept) fields) ∧ chosen.Sublist rows ∧
      List.Forall₂ (Fills deps anchor pairs) chosen kept ∧
      (anchor.requireFullCoverage ≠ some false → Covers deps anchor pairs chosen) := by
  have reads := @reads_foldl deps anchor pairs
  unfold anchorRows at ends
  generalize pairs.foldl (collectAnchor deps anchor) {} = found at ends reads
  dsimp only at ends
  split at ends
  · cases ends
  · split at ends
    · cases ends
    · rename_i complete
      generalize usableIs : ({ found with
        byKey := found.byKey.filter fun entry => entry.1 ∉ found.ambiguous } : Anchors) = usable at ends complete
      obtain ⟨chosen, listed, matched, sources⟩ := filterMap_chosen (keepRow anchor usable) rows
      have usableFacts := fun key value (got : usable.get key = some value) => reads.usable (usableIs ▸ got)
      refine ⟨chosen, (rows.filterMap (keepRow anchor usable)).map Prod.snd, (Except.ok.inj ends).symm, listed,
        ?_, fun full => ?_⟩
      · rw [List.forall₂_map_right_iff]
        refine matched.imp fun row kept keeps => ?_
        obtain ⟨own, value, members, -, got, is⟩ := keepRow_eq_some keeps
        obtain ⟨-, sourced, unique⟩ := usableFacts _ _ got
        exact ⟨own, value, members, is, sourced, unique⟩
      · have none := Nat.eq_zero_of_not_pos fun some => complete ⟨some, .inl full⟩
        simp only [Nat.add_eq_zero_iff, List.length_eq_zero_iff] at none
        obtain ⟨⟨uncovered, unambiguous⟩, unresolvable⟩ := none
        have known : ∀ pair ∈ pairs, ∀ entry, resolved deps anchor pair = some entry → entry ∈ found.byKey := by
          intro pair member entry here
          refine (reads.complete pair member entry.1 entry.2 here).resolve_right ?_
          simp [unambiguous]
        have kept : usable.byKey = found.byKey := by
          subst usableIs
          simp [unambiguous]
        intro pair member
        obtain ⟨⟨key, value⟩, here⟩ := Option.isSome_iff_exists.mp (reads.lost unresolvable pair member)
        have listed := known pair member _ here
        have within : (rows.filterMap (keepRow anchor usable)).map Prod.fst ⊆ usable.byKey.map Prod.fst := by
          intro taken among
          obtain ⟨kept, keeps, rfl⟩ := List.mem_map.mp among
          obtain ⟨row, -, source⟩ := sources kept keeps
          obtain ⟨own, value, -, named, got, -⟩ := keepRow_eq_some source
          exact named ▸ List.mem_map_of_mem (Anchors.get_eq_some got)
        have size : usable.byKey.length - ((rows.filterMap (keepRow anchor usable)).map Prod.fst).dedup.length = 0 := by
          subst usableIs
          exact uncovered
        have taken := keys_covered within (by rwa [List.length_map]) (kept ▸ List.mem_map_of_mem listed)
        obtain ⟨entry, keeps, named⟩ := List.mem_map.mp taken
        obtain ⟨row, among, source⟩ := sources entry keeps
        obtain ⟨own, -, members, is, -, -⟩ := keepRow_eq_some source
        refine ⟨key, value, here, fun other member' value' here' => ?_, row, among, own, members, is.symm.trans named⟩
        exact congrArg Prod.snd (List.inj_on_of_nodup_map reads.once (known other member' _ here') listed rfl)

/-- What `applyRowAnchor` returns is the join of the rows it was given with the
anchors the page shows. -/
theorem applyRowAnchor_joins (deps : Deps) (stepId : String) (anchor : ExtractRowAnchor) (parsed : Json)
    (pairs : List Json) (result : Json)
    (returns : (applyRowAnchor deps stepId anchor parsed).Returns (ShowsAnchors pairs) result) :
    ∃ rows chosen kept, parsed.field "rows" = some (.arr rows) ∧
      result = .obj (Json.assign "rows" (.arr kept) parsed.fields) ∧ chosen.Sublist rows ∧
      List.Forall₂ (Fills deps anchor pairs) chosen kept ∧
      (anchor.requireFullCoverage ≠ some false → Covers deps anchor pairs chosen) := by
  unfold applyRowAnchor at returns
  cases found : (parsed.field "rows").bind Json.items? with
  | none =>
    rw [found] at returns
    cases returns
  | some rows =>
    rw [found] at returns
    cases returns with
    | later given returns =>
      rename_i reply
      obtain rfl : reply = .ok (.arr pairs) := given
      cases pairs with
      | nil => cases returns
      | cons pair rest =>
        have lifted : Dialogue.Returns (ShowsAnchors (pair :: rest))
          (.lift (anchorRows deps stepId anchor parsed.fields rows (pair :: rest)) : PageStep Json)
          result := returns
        cases ends : anchorRows deps stepId anchor parsed.fields rows (pair :: rest) with
        | error error =>
          rw [ends] at lifted
          cases lifted
        | ok value =>
          rw [ends] at lifted
          cases lifted
          obtain ⟨chosen, kept, joined⟩ := anchorRows_ok ends
          refine ⟨rows, chosen, kept, ?_, joined⟩
          obtain ⟨value, stored, items⟩ := Option.bind_eq_some_iff.mp found
          rw [stored]
          cases value with
          | arr items' => exact congrArg (fun rows => some (Json.arr rows)) (Option.some.inj items)
          | _ => cases items

/-- An executor whose patterns capture the whole attribute. -/
def wholeCapture : Deps where
  capture _ text := some text
  clickSettleMs := 5000

def inboxAnchor : ExtractRowAnchor :=
  ⟨"td.docu-num", none, "approval_id", "doc_ref", "data-href", "(.*)", "doc:$1", none⟩

def inboxRow (approvalId : String) : Json := .obj [("approval_id", .str approvalId), ("title", .str "invoice")]

def inboxPair (key value : String) : Json := .obj [("k", .str key), ("v", .str value)]

/-- Three rows, two of them with their anchors on the page, one of which stands there twice. -/
theorem applyRowAnchor_joins_inbox :
    let parsed := Json.obj [("rows", .arr [inboxRow "A-1", inboxRow "A-2", inboxRow "A-9"])]
    let pairs := [inboxPair " A-2 " "8", inboxPair "A-1" "7", inboxPair "A-2" "8"]
    let joined (approvalId value : String) : Json :=
      .obj [("approval_id", .str approvalId), ("title", .str "invoice"), ("doc_ref", .str value)]
    ∃ rows chosen kept, parsed.field "rows" = some (.arr rows) ∧
      Json.obj [("rows", .arr [joined "A-1" "doc:7", joined "A-2" "doc:8"])] =
        .obj (Json.assign "rows" (.arr kept) parsed.fields) ∧
      chosen.Sublist rows ∧ List.Forall₂ (Fills wholeCapture inboxAnchor pairs) chosen kept ∧
      (inboxAnchor.requireFullCoverage ≠ some false → Covers wholeCapture inboxAnchor pairs chosen) := by
  refine applyRowAnchor_joins wholeCapture "inbox.0" inboxAnchor _ _ _ ?_
  exact .later rfl .done

end RowAnchors

/-! ## Rich bodies -/

section RichBody

/-- Where an insertion puts the text. -/
def insertAt (place : Nat) (text body : List UInt16) : List UInt16 := body.take place ++ text ++ body.drop place

/-- A line feed or a carriage return. -/
def isLineBreak (unit : UInt16) : Bool := unit = 10 || unit = 13

/-- A text without its line breaks; `textContent` has none where the editor has
made them elements. -/
def unbroken (text : List UInt16) : List UInt16 := text.filter fun unit => !isLineBreak unit

/-- Why the script did not come to the body. -/
inductive Obstacle where
  | synapInit | noFrame | crossOrigin | noBody

def Obstacle.status : Obstacle → String
  | .synapInit => "synap-init"
  | .noFrame => "no-frame"
  | .crossOrigin => "cross-origin"
  | .noBody => "no-body"

/-- What the page does at one poll of the script. -/
inductive Editor where
  /-- The page cannot be reached. -/
  | lost (message : String)
  | absent (obstacle : Obstacle)
  /-- `insertHTML` of a SynapEditor, which takes the text or not and may throw; whether the
  frame that the selector finds can be read before it, and after it. -/
  | synap (readable readableAfter takes throws : Bool) (place : Nat)
  /-- A `contenteditable` body, which takes typed text or not, and a new first
  child or not. -/
  | contentEditable (types prepends : Bool) (place : Nat)

/-- The page between two questions: the body of the editor and how often the text
was inserted. -/
structure Frame where
  asked : Nat
  body : List UInt16
  inserted : Nat

def Frame.insert (frame : Frame) (takes : Bool) (place : Nat) (text : List UInt16) : Frame :=
  if takes then ⟨frame.asked, insertAt place text frame.body, frame.inserted + 1⟩ else frame

def Frame.reflects (frame : Frame) (probe : List UInt16) : Bool := decide (probe <:+: frame.body)

/-- `execCommand`, and a new first child where the body does not show the text then. -/
def Frame.typeOrPrepend (frame : Frame) (types prepends : Bool) (place : Nat) (value probe : List UInt16) :
    Frame :=
  let typed := frame.insert types place (unbroken value)
  if typed.reflects probe then typed else typed.insert prepends 0 value

/-- The second look of the SynapEditor branch. -/
def synapStatus (readable : Bool) (probe : List UInt16) (frame : Frame) : Except String Json :=
  .ok (.str (if readable && frame.reflects probe then "ok" else "synap-not-reflected"))

/-- The script of `executeRichBodyFill`. -/
def insertScript (editor : Editor) (value probe : List UInt16) (frame : Frame) : Except String Json × Frame :=
  match editor with
  | .lost message => (.error message, frame)
  | .absent obstacle => (.ok (.str obstacle.status), frame)
  | .synap readable readableAfter takes throws place =>
    if readable && frame.reflects probe then (synapStatus readableAfter probe frame, frame)
    else
      -- a frame that cannot be read counts as one without the text
      let next := frame.insert takes place (unbroken value)
      if throws then (.ok (.str "synap-insert-err"), next) else (synapStatus readableAfter probe next, next)
  | .contentEditable types prepends place =>
    if frame.reflects probe then (.ok (.str "ok"), frame)
    else
      let next := frame.typeOrPrepend types prepends place value probe
      if next.reflects probe then (.ok (.str "ok"), next) else (.ok (.str "not-reflected"), next)

/-- What surrounds the step, by the number of questions asked before. -/
structure Surroundings where
  abortSignal : Nat → Bool
  clock : Nat → Nat
  editor : Nat → Editor
  /-- The text a script of the page has put into the body meanwhile. -/
  overwritten : Nat → Option (List UInt16)

/-- No script of the page edits the body. -/
def Surroundings.Quiet (surroundings : Surroundings) : Prop := ∀ asked, surroundings.overwritten asked = none

def Editor.Readable : Editor → Prop
  | .synap readable _ _ _ _ => readable = true
  | _ => True

/-- A script that inserts by a SynapEditor can read the frame first. -/
def Surroundings.Readable (surroundings : Surroundings) : Prop := ∀ asked, (surroundings.editor asked).Readable

def Surroundings.answer (surroundings : Surroundings) (frame : Frame) :
    (question : PageAsk) → question.Reply × Frame
  | .aborted => (surroundings.abortSignal frame.asked, { frame with asked := frame.asked + 1 })
  | .clock => (surroundings.clock frame.asked, { frame with asked := frame.asked + 1 })
  | .evaluate (.insertRichBody _ value probe) =>
    insertScript (surroundings.editor frame.asked) (CodeUnits.ofString value) probe
      ⟨frame.asked + 1, (surroundings.overwritten frame.asked).getD frame.body, frame.inserted⟩
  | .evaluate _ => (.ok .null, { frame with asked := frame.asked + 1 })

/-- A fill that returns has left the whole value in the body, and without scripts
that edit the body has inserted it once at most. -/
def HonestFill (surroundings : Surroundings) (value : String) : Prop :=
  ∀ (deps : Deps) (stepId frame : String) (sideEffect : Option String) (ctx : RunContext) (body : List UInt16),
    let outcome :=
      (executeRichBodyFill deps stepId frame (some value) sideEffect ctx).run surroundings.answer ⟨0, body, 0⟩
    (outcome.1.toBool = true → unbroken (CodeUnits.ofString value) <:+: unbroken outcome.2.body) ∧
      (surroundings.Quiet → outcome.2.inserted ≤ 1)

/-- The script sees all of the value but for line breaks, and none of those. -/
def WholeProbe (value : String) : Prop :=
  unbroken (CodeUnits.ofString value) = unbroken (probeOf value) ∧ (probeOf value).any isLineBreak = false

variable {value probe : List UInt16}

theorem unbroken_append (one two : List UInt16) : unbroken (one ++ two) = unbroken one ++ unbroken two :=
  List.filter_append ..

theorem unbroken_infix {one two : List UInt16} (inside : one <:+: two) : unbroken one <:+: unbroken two := by
  obtain ⟨before, after, rfl⟩ := inside
  exact ⟨unbroken before, unbroken after, by simp only [unbroken_append]⟩

theorem unbroken_of_plain {text : List UInt16} (plain : text.any isLineBreak = false) : unbroken text = text :=
  List.filter_eq_self.mpr fun unit member => by
    simpa using List.any_eq_false.mp plain unit member

theorem infix_insertAt (place : Nat) (text body : List UInt16) : text <:+: insertAt place text body :=
  ⟨body.take place, body.drop place, rfl⟩

theorem Frame.reflects_iff (frame : Frame) : frame.reflects probe = true ↔ probe <:+: frame.body :=
  decide_eq_true_iff

/-- The text was not inserted, or once and the script finds it. -/
def Frame.Settled (probe : List UInt16) (frame : Frame) : Prop :=
  frame.inserted = 0 ∨ frame.inserted = 1 ∧ probe <:+: frame.body

theorem Frame.Settled.insert {frame : Frame} {text : List UInt16} (settled : frame.Settled probe)
    (missing : ¬ frame.reflects probe = true) (shows_ : probe <:+: text) (takes : Bool) (place : Nat) :
    (frame.insert takes place text).Settled probe := by
  have none : frame.inserted = 0 := settled.resolve_right fun once => missing (frame.reflects_iff.mpr once.2)
  unfold Frame.insert
  split
  · exact .inr ⟨by simp [none], shows_.trans (infix_insertAt place text frame.body)⟩
  · exact settled

theorem synapStatus_ok {readable : Bool} {frame : Frame}
    (ok : synapStatus readable probe frame = .ok (.str "ok")) : probe <:+: frame.body := by
  unfold synapStatus at ok
  split at ok
  · rename_i found
    exact frame.reflects_iff.mp (Bool.and_eq_true_iff.mp found).2
  · simp at ok

/-- A script that says `ok` has found what it looks for. -/
theorem insertScript_ok {editor : Editor} {frame next : Frame}
    (ends : insertScript editor value probe frame = (.ok (.str "ok"), next)) : probe <:+: next.body := by
  cases editor with
  | lost message => cases ends
  | absent obstacle => cases obstacle <;> simp [insertScript, Obstacle.status] at ends
  | synap readable readableAfter takes throws place =>
    simp only [insertScript] at ends
    split at ends
    · obtain ⟨ok, rfl⟩ := Prod.mk.inj ends
      exact synapStatus_ok ok
    · split at ends
      · simp at ends
      · obtain ⟨ok, rfl⟩ := Prod.mk.inj ends
        exact synapStatus_ok ok
  | contentEditable types prepends place =>
    simp only [insertScript] at ends
    split at ends
    · rename_i found
      obtain ⟨-, rfl⟩ := Prod.mk.inj ends
      exact frame.reflects_iff.mp found
    · split at ends
      · rename_i found
        obtain ⟨-, rfl⟩ := Prod.mk.inj ends
        exact (Frame.reflects_iff _).mp found
      · simp at ends

/-- A script that finds what it inserts does not insert it again. -/
theorem insertScript_settled {editor : Editor} (readable : editor.Readable) {frame : Frame}
    (settled : frame.Settled probe) (typed : probe <:+: unbroken value) (whole : probe <:+: value) :
    (insertScript editor value probe frame).2.Settled probe := by
  cases editor with
  | lost message => exact settled
  | absent obstacle => exact settled
  | synap reads readableAfter takes throws place =>
    obtain rfl : reads = true := readable
    simp only [insertScript, Bool.true_and]
    split
    · exact settled
    · rename_i missing
      have next := settled.insert missing typed takes place
      split <;> exact next
  | contentEditable types prepends place =>
    simp only [insertScript]
    split
    · exact settled
    · rename_i missing
      have next := settled.insert missing typed types place
      have last : (frame.typeOrPrepend types prepends place value probe).Settled probe := by
        unfold Frame.typeOrPrepend
        dsimp only
        split
        · exact next
        · rename_i untyped
          exact next.insert untyped whole prepends 0
      split <;> exact last

/-! ### Polls -/

variable (surroundings : Surroundings) (text frameName : String)

/-- The script of one poll, after the page has had its turn. -/
def Surroundings.poll (frame : Frame) : Except String Json × Frame :=
  insertScript (surroundings.editor frame.asked) (CodeUnits.ofString text) (probeOf text)
    ⟨frame.asked + 1, (surroundings.overwritten frame.asked).getD frame.body, frame.inserted⟩

/-- The status of a poll; a script that raises counts as none. -/
def scriptStatus : Except String Json → PageStep Json
  | .ok status => pure status
  | .error _ => pure (.str "")

theorem insertStatus_asks (frame : Frame) :
    (insertStatus frameName text).run surroundings.answer frame =
      (scriptStatus (surroundings.poll text frame).1).run surroundings.answer (surroundings.poll text frame).2 :=
  rfl

theorem insertStatus_run (frame : Frame) :
    ∃ status, (insertStatus frameName text).run surroundings.answer frame =
        (.ok status, (surroundings.poll text frame).2) ∧
      (status = .str "ok" → (surroundings.poll text frame).1 = .ok (.str "ok")) := by
  rw [insertStatus_asks]
  cases (surroundings.poll text frame).1 with
  | ok status => exact ⟨status, rfl, congrArg Except.ok⟩
  | error message => exact ⟨.str "", rfl, fun ok => absurd ok (by simp)⟩

/-- The clock changes nothing in the page; only `ok` counts as stable. -/
theorem stableSince_run (status : Json) (okSince : Nat) (frame : Frame) :
    ∃ stable since asked, (stableSince status okSince).run surroundings.answer frame =
      (.ok (stable, since), { frame with asked }) ∧ (stable = true → status = .str "ok") := by
  by_cases ok : status = .str "ok"
  · subst ok
    by_cases first : okSince = 0
    · subst first
      exact ⟨_, _, _, rfl, fun _ => rfl⟩
    · refine ⟨decide (stableMs ≤ surroundings.clock frame.asked - okSince), okSince, frame.asked + 1, ?_, fun _ => rfl⟩
      simp only [stableSince, if_neg first]
      rfl
  · refine ⟨false, 0, frame.asked, ?_, by simp⟩
    unfold stableSince
    split
    · exact absurd rfl ok
    · rfl

/-- Where nothing disturbs the fill and the body shows what the script looks for, the
text was inserted once at most. -/
def Surroundings.Kept (frame : Frame) : Prop :=
  surroundings.Quiet → surroundings.Readable → probeOf text <:+: unbroken (CodeUnits.ofString text) →
    frame.Settled (probeOf text)

/-- What holds at the end of a run of polls. -/
def Surroundings.Honest (outcome : Except Raised Unit × Frame) : Prop :=
  (outcome.1.toBool = true → probeOf text <:+: outcome.2.body) ∧ surroundings.Kept text outcome.2

/-- One poll, with what follows where the text is not yet stable. -/
def pollOnce (deps : Deps) (stepId : String) (deadline okSince : Nat) (rest : Json → Nat → PageStep Unit) :
    PageStep Unit := do
  if ← aborted then
    raiseAborted s!"step '{stepId}' aborted while filling rich body frame '{frameName}'"
  else do
    let status ← insertStatus frameName text
    match status with
    | .str "cross-origin" =>
      raise s!"step '{stepId}' rich_body_frame '{frameName}' 는 교차 출처라 본문 접근 불가"
    | _ => do
      let (stable, okSince) ← stableSince status okSince
      if stable then pure ()
      else if ← expired deadline then raise (richBodyTimeout deps stepId frameName status)
      else rest status okSince

theorem settleRichBody_zero (deps : Deps) (stepId : String) (deadline okSince : Nat) :
    settleRichBody deps stepId frameName text deadline 0 okSince =
      pollOnce text frameName deps stepId deadline okSince
        fun status _ => raise (richBodyTimeout deps stepId frameName status) := by
  rewrite [settleRichBody, pollOnce]
  rfl

theorem settleRichBody_succ (deps : Deps) (stepId : String) (deadline polls okSince : Nat) :
    settleRichBody deps stepId frameName text deadline (polls + 1) okSince =
      pollOnce text frameName deps stepId deadline okSince
        fun _ since => settleRichBody deps stepId frameName text deadline polls since := by
  rewrite [settleRichBody, pollOnce]
  rfl

variable {surroundings text frameName}

theorem Surroundings.Honest.of_error {error : Raised} {frame : Frame} (kept : surroundings.Kept text frame) :
    surroundings.Honest text (.error error, frame) :=
  ⟨fun ok => absurd ok (by simp [Except.toBool]), kept⟩

theorem poll_kept {frame : Frame} (kept : surroundings.Kept text frame) :
    surroundings.Kept text (surroundings.poll text frame).2 := by
  intro quiet readable typed
  unfold Surroundings.poll
  rw [quiet frame.asked]
  exact insertScript_settled (readable _) (kept quiet readable typed) typed (List.take_prefix 24 _).isInfix

theorem poll_ok {frame : Frame} (ok : (surroundings.poll text frame).1 = .ok (.str "ok")) :
    probeOf text <:+: (surroundings.poll text frame).2.body :=
  insertScript_ok (Prod.ext ok rfl)

/-- A poll is honest if what follows it is. -/
theorem pollOnce_honest (deps : Deps) (stepId : String) (deadline okSince : Nat)
    {rest : Json → Nat → PageStep Unit} {frame : Frame} (kept : surroundings.Kept text frame)
    (later : ∀ status since next, surroundings.Kept text next →
      surroundings.Honest text ((rest status since).run surroundings.answer next)) :
    surroundings.Honest text
      ((pollOnce text frameName deps stepId deadline okSince rest).run surroundings.answer frame) := by
  unfold pollOnce
  rw [Dialogue.run_bind]
  have signal : aborted.run surroundings.answer frame =
    (.ok (surroundings.abortSignal frame.asked), { frame with asked := frame.asked + 1 }) := rfl
  rw [signal]
  dsimp only
  split
  · exact .of_error kept
  · generalize here : ({ frame with asked := frame.asked + 1 } : Frame) = begun
    have polled := @poll_kept surroundings text begun (here ▸ kept)
    obtain ⟨status, inserted, found⟩ := insertStatus_run surroundings text frameName begun
    rw [Dialogue.run_bind, inserted]
    dsimp only
    split
    · exact .of_error polled
    · obtain ⟨stable, since, asked, ran, onlyOk⟩ := stableSince_run surroundings status okSince
        (surroundings.poll text begun).2
      rw [Dialogue.run_bind, ran]
      dsimp only
      split
      · rename_i isStable
        exact ⟨fun _ => poll_ok (found (onlyOk isStable)), polled⟩
      · rw [Dialogue.run_bind]
        have time : ∃ late asked', (expired deadline).run surroundings.answer
            { (surroundings.poll text begun).2 with asked } =
          (.ok late, { (surroundings.poll text begun).2 with asked := asked' }) := ⟨_, _, rfl⟩
        obtain ⟨late, asked', waited⟩ := time
        rw [waited]
        dsimp only
        split
        · exact .of_error polled
        · exact later status since _ polled

theorem settleRichBody_honest (deps : Deps) (stepId : String) (deadline polls okSince : Nat) (frame : Frame)
    (kept : surroundings.Kept text frame) :
    surroundings.Honest text
      ((settleRichBody deps stepId frameName text deadline polls okSince).run surroundings.answer frame) := by
  induction polls generalizing okSince frame with
  | zero =>
    rw [settleRichBody_zero]
    exact pollOnce_honest deps stepId deadline okSince kept fun _ _ _ next => .of_error next
  | succ polls ih =>
    rw [settleRichBody_succ]
    exact pollOnce_honest deps stepId deadline okSince kept fun _ since next kept => ih since next kept

/-! ### Which values are filled honestly -/

/-- A fill with a text runs the polls, and returns where they end well. -/
theorem executeRichBodyFill_run (filled : text ≠ "") (deps : Deps) (stepId : String) (sideEffect : Option String)
    (ctx : RunContext) (body : List UInt16) :
    let outcome := (executeRichBodyFill deps stepId frameName (some text) sideEffect ctx).run
      surroundings.answer ⟨0, body, 0⟩
    let polled := (settleRichBody deps stepId frameName text (surroundings.clock 0 + deps.clickSettleMs)
      (deps.clickSettleMs / clickPollMs) 0).run surroundings.answer ⟨1, body, 0⟩
    outcome.1.toBool = polled.1.toBool ∧ outcome.2 = polled.2 := by
  have kept : (some text).filter (· ≠ "") = some text := by simp [filled]
  dsimp only
  rw [executeRichBodyFill, kept]
  dsimp only
  rw [Dialogue.run_bind]
  have start : clock.run surroundings.answer ⟨0, body, 0⟩ = (.ok (surroundings.clock 0), ⟨1, body, 0⟩) := rfl
  rw [start]
  dsimp only
  rw [Dialogue.run_bind]
  generalize (settleRichBody deps stepId frameName text (surroundings.clock 0 + deps.clickSettleMs)
    (deps.clickSettleMs / clickPollMs) 0).run surroundings.answer ⟨1, body, 0⟩ = polled
  obtain ⟨ending, last⟩ := polled
  cases ending <;> exact ⟨rfl, rfl⟩

/-- A fill without a text raises before it asks the page for anything. -/
theorem honestFill_empty (surroundings : Surroundings) : HonestFill surroundings "" := by
  intro deps stepId frame sideEffect ctx body
  have empty : (some "").filter (· ≠ "") = none := by simp
  dsimp only
  rw [executeRichBodyFill, empty]
  exact ⟨fun ok => absurd ok Bool.false_ne_true, fun _ => Nat.zero_le 1⟩

theorem honest_of_wholeProbe (whole : WholeProbe text) (readable : surroundings.Readable) :
    HonestFill surroundings text := by
  obtain ⟨same, plain⟩ := whole
  by_cases filled : text = ""
  · exact filled ▸ honestFill_empty surroundings
  intro deps stepId frame sideEffect ctx body
  obtain ⟨ends, last⟩ := @executeRichBodyFill_run surroundings text frame filled deps stepId sideEffect ctx body
  dsimp only
  rw [ends, last]
  obtain ⟨left, settled⟩ := @settleRichBody_honest surroundings text frame deps stepId
    (surroundings.clock 0 + deps.clickSettleMs) (deps.clickSettleMs / clickPollMs) 0 ⟨1, body, 0⟩
    fun _ _ _ => .inl rfl
  refine ⟨fun ok => ?_, fun quiet => ?_⟩
  · rw [same]
    exact unbroken_infix (left ok)
  · have seen : probeOf text <:+: unbroken (CodeUnits.ofString text) := by
      rw [same, unbroken_of_plain plain]
    rcases settled quiet readable seen with never | once
    · exact Nat.le_of_eq never |>.trans (Nat.zero_le 1)
    · exact Nat.le_of_eq once.1

/-- Surroundings in which a poll is followed by a long time, and the editor does
the same at every poll. -/
def patient (editor : Editor) : Surroundings :=
  ⟨fun _ => false, fun asked => 3000 * asked, fun _ => editor, fun _ => none⟩

def someContext : RunContext where
  pageState := { urlPattern := "*", structuralHash := "h1", landmarks := [], auth := .anonymous, flags := [] }

/-- Where the first poll finds the text, the fill returns with what that poll left. -/
theorem run_patient {editor : Editor} {body : List UInt16} {next : Frame} (filled : text ≠ "")
    (ends : insertScript editor (CodeUnits.ofString text) (probeOf text) ⟨3, body, 0⟩ = (.ok (.str "ok"), next)) :
    let outcome := (executeRichBodyFill wholeCapture "s" "f" (some text) none someContext).run
      (patient editor).answer ⟨0, body, 0⟩
    outcome.1.toBool = true ∧ outcome.2.body = next.body ∧ outcome.2.inserted = next.inserted := by
  have polled : (patient editor).poll text ⟨2, body, 0⟩ = (.ok (.str "ok"), next) := ends
  have status : (insertStatus "f" text).run (patient editor).answer ⟨2, body, 0⟩ = (.ok (.str "ok"), next) := by
    rw [insertStatus_asks, polled]
    rfl
  have stable : (stableSince (.str "ok") 0).run (patient editor).answer next =
      (.ok (true, 3000 * next.asked), { next with asked := next.asked + 2 }) := by
    have long : decide (stableMs ≤ 3000 * (next.asked + 1) - 3000 * next.asked) = true :=
      decide_eq_true (by rw [stableMs]; omega)
    have asks : (stableSince (.str "ok") 0).run (patient editor).answer next =
      (.ok (decide (stableMs ≤ 3000 * (next.asked + 1) - 3000 * next.asked), 3000 * next.asked),
        { next with asked := next.asked + 2 }) := rfl
    rw [asks, long]
  have settled : (settleRichBody wholeCapture "s" "f" text ((patient editor).clock 0 + wholeCapture.clickSettleMs)
      (wholeCapture.clickSettleMs / clickPollMs) 0).run (patient editor).answer ⟨1, body, 0⟩ =
        (.ok (), { next with asked := next.asked + 2 }) := by
    have polls : wholeCapture.clickSettleMs / clickPollMs = 9 + 1 := rfl
    rw [polls, settleRichBody_succ, pollOnce, Dialogue.run_bind]
    have signal : aborted.run (patient editor).answer ⟨1, body, 0⟩ = (.ok false, ⟨2, body, 0⟩) := rfl
    rw [signal]
    dsimp only
    rw [if_neg Bool.false_ne_true, Dialogue.run_bind, status]
    dsimp only
    split
    · rename_i crossOrigin
      simp at crossOrigin
    · rw [Dialogue.run_bind, stable]
      rfl
  obtain ⟨ok, last⟩ := @executeRichBodyFill_run (patient editor) text "f" filled wholeCapture "s" none someContext body
  dsimp only
  rw [ok, last, settled]
  exact ⟨rfl, rfl, rfl⟩

theorem wholeProbe_of_honest
    (honest : ∀ surroundings : Surroundings, surroundings.Readable → HonestFill surroundings text) :
    WholeProbe text := by
  by_cases filled : text = ""
  · subst filled
    exact ⟨rfl, rfl⟩
  have split : CodeUnits.ofString text = probeOf text ++ (CodeUnits.ofString text).drop 24 :=
    (List.take_append_drop 24 _).symm
  constructor
  · -- a body that shows no more than the probe
    by_contra longer
    have ends : insertScript (.contentEditable false false 0) (CodeUnits.ofString text) (probeOf text)
        ⟨3, probeOf text, 0⟩ = (.ok (.str "ok"), ⟨3, probeOf text, 0⟩) := by
      simp [insertScript, Frame.reflects]
    obtain ⟨ok, body, -⟩ := run_patient filled ends
    have inside := (honest (patient (.contentEditable false false 0)) (fun _ => trivial) wholeCapture "s" "f" none
      someContext _).1 ok
    have length := inside.length_le
    rw [body, split, unbroken_append, List.length_append] at length
    dsimp only at length
    have none : unbroken ((CodeUnits.ofString text).drop 24) = [] := List.length_eq_zero_iff.mp (by omega)
    rw [split, unbroken_append, none, List.append_nil] at longer
    exact longer rfl
  · -- an empty body that takes typed text and shows no line breaks
    by_contra broken
    rw [Bool.not_eq_false] at broken
    have hidden : ¬ probeOf text <:+: unbroken (CodeUnits.ofString text) := by
      intro inside
      obtain ⟨unit, member, break_⟩ := List.any_eq_true.mp broken
      have kept := (List.mem_filter.mp (inside.subset member)).2
      rw [break_] at kept
      cases kept
    have shown : probeOf text <:+: CodeUnits.ofString text ++ unbroken (CodeUnits.ofString text) :=
      ((List.take_prefix 24 _).isInfix).trans (List.prefix_append _ _).isInfix
    have ends : insertScript (.contentEditable true true 0) (CodeUnits.ofString text) (probeOf text) ⟨3, [], 0⟩ =
        (.ok (.str "ok"), ⟨3, CodeUnits.ofString text ++ unbroken (CodeUnits.ofString text), 2⟩) := by
      have nonempty : ¬ probeOf text <:+: [] := fun inside =>
        hidden (List.infix_nil.mp inside ▸ List.nil_infix)
      simp [insertScript, Frame.typeOrPrepend, Frame.reflects, Frame.insert, insertAt, nonempty, hidden, shown]
    obtain ⟨-, -, twice⟩ := run_patient filled ends
    have once := (honest (patient (.contentEditable true true 0)) (fun _ => trivial) wholeCapture "s" "f" none
      someContext []).2 fun _ => rfl
    rw [twice] at once
    exact absurd once (by simp)

/-- A SynapEditor whose frame cannot be read, on a page where time stands still. -/
def unreadable : Surroundings :=
  ⟨fun _ => false, fun _ => 0, fun _ => .synap false false true false 0, fun _ => none⟩

/-- Every poll inserts the text once more. -/
theorem pollOnce_unreadable (deps : Deps) (stepId : String) {deadline : Nat} (okSince : Nat)
    (rest : Json → Nat → PageStep Unit) (later : 0 < deadline) (frame : Frame) :
    ∃ next, next.inserted = frame.inserted + 1 ∧
      (pollOnce text frameName deps stepId deadline okSince rest).run unreadable.answer frame =
        (rest (.str "synap-not-reflected") 0).run unreadable.answer next := by
  have signal : aborted.run unreadable.answer frame = (.ok false, { frame with asked := frame.asked + 1 }) := rfl
  have status (begun : Frame) : (insertStatus frameName text).run unreadable.answer begun =
      (.ok (.str "synap-not-reflected"),
        ⟨begun.asked + 1, insertAt 0 (unbroken (CodeUnits.ofString text)) begun.body, begun.inserted + 1⟩) := rfl
  have time (begun : Frame) : (expired deadline).run unreadable.answer begun =
      (.ok (decide (deadline ≤ 0)), { begun with asked := begun.asked + 1 }) := rfl
  rw [pollOnce, Dialogue.run_bind, signal]
  dsimp only
  rw [if_neg Bool.false_ne_true, Dialogue.run_bind, status]
  dsimp only
  split
  · rename_i crossOrigin
    simp at crossOrigin
  · rw [Dialogue.run_bind, stableSince.eq_2 _ _ (by simp)]
    refine ⟨⟨frame.asked + 3, insertAt 0 (unbroken (CodeUnits.ofString text)) frame.body, frame.inserted + 1⟩, rfl, ?_⟩
    change ((expired deadline) >>= _).run unreadable.answer _ = _
    rw [Dialogue.run_bind, time, decide_eq_false (Nat.not_le.mpr later)]
    rfl

theorem settleRichBody_unreadable (deps : Deps) (stepId : String) {deadline : Nat} (later : 0 < deadline)
    (polls okSince : Nat) (frame : Frame) :
    ((settleRichBody deps stepId frameName text deadline polls okSince).run unreadable.answer frame).2.inserted =
      frame.inserted + polls + 1 := by
  induction polls generalizing okSince frame with
  | zero =>
    rw [settleRichBody_zero]
    obtain ⟨next, inserted, ran⟩ := pollOnce_unreadable deps stepId okSince _ later frame
    rw [ran]
    exact inserted
  | succ polls ih =>
    rw [settleRichBody_succ]
    obtain ⟨next, inserted, ran⟩ := pollOnce_unreadable deps stepId okSince _ later frame
    rw [ran, ih, inserted]
    omega

/-- No text is filled honestly whatever the editor. -/
theorem empty_of_honest (honest : ∀ surroundings, HonestFill surroundings text) : text = "" := by
  by_contra filled
  have last := (@executeRichBodyFill_run unreadable text "f" filled wholeCapture "s" none someContext []).2
  have once := (honest unreadable wholeCapture "s" "f" none someContext []).2 fun _ => rfl
  have later : 0 < unreadable.clock 0 + wholeCapture.clickSettleMs := by decide
  rw [last, settleRichBody_unreadable wholeCapture "s" later] at once
  exact absurd once (by decide)

/-- A value is filled honestly exactly if the script looks for all of it and for no line
break, as long as the frame of a SynapEditor can be read; where it cannot, none is. -/
theorem honestFill_iff (text : String) :
    ((∀ surroundings : Surroundings, surroundings.Readable → HonestFill surroundings text) ↔ WholeProbe text) ∧
      ((∀ surroundings, HonestFill surroundings text) ↔ text = "") := by
  refine ⟨⟨wholeProbe_of_honest, fun whole _ readable => honest_of_wholeProbe whole readable⟩, empty_of_honest, ?_⟩
  rintro rfl surroundings
  exact honestFill_empty surroundings

/-- A body that quotes the beginning of the value is taken for the value. -/
theorem beginning_taken_for_value :
    let quoted := CodeUnits.ofString "Please approve the reque"
    let outcome := (executeRichBodyFill wholeCapture "s" "f" (some "Please approve the request.") none
      someContext).run (patient (.contentEditable true true 0)).answer ⟨0, quoted, 0⟩
    outcome.1.toBool = true ∧ outcome.2.body = quoted ∧ outcome.2.inserted = 0 := by
  have ends : insertScript (.contentEditable true true 0) (CodeUnits.ofString "Please approve the request.")
      (probeOf "Please approve the request.") ⟨3, CodeUnits.ofString "Please approve the reque", 0⟩ =
        (.ok (.str "ok"), ⟨3, CodeUnits.ofString "Please approve the reque", 0⟩) := by
    rw [insertScript]
    exact if_pos (by decide +kernel)
  exact run_patient (by decide) ends

end RichBody

end RpaEnterprise.Executor
