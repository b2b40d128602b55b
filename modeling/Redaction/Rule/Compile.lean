import Redaction.Instruction.Parse
import Redaction.Method.Registry
import Redaction.Rule.Basic

/-!
# Compiling instructions

The nodes of an instruction are taken as segments of the shape `selector = method params`, and each
segment becomes a rule. A segment begins at the next node that can be a selector, and its method is
the node after the next run marker; what lies between is passed over, and so is what follows the
last segment. A segment that is not whole ends the compilation.
-/

namespace Redaction

open Redaction.Instruction Redaction.Text

/-- The first node with a property among those that have a node after them, that next node, and the
nodes after it. -/
def seek (p : Node → Bool) : List Node → Option (Node × Node × List Node)
  | a :: b :: rest => if p a then some (a, b, rest) else seek p (b :: rest)
  | _ => none

theorem length_seek_lt {p : Node → Bool} {nodes rest : List Node} {a b : Node}
    (h : seek p nodes = some (a, b, rest)) : rest.length + 2 ≤ nodes.length := by
  fun_induction seek p nodes with
  | case1 x y tail hx =>
      cases h
      simp
  | case2 x y tail hx ih => exact Nat.le_succ_of_le (ih h)
  | case3 => cases h

def isSelector (n : Node) : Bool := n.kind == .set || n.kind == .text

def isRun (n : Node) : Bool := n.kind == .run

/-- A segment of an instruction before its method is looked up. -/
structure Segment where
  groups : List GroupSelector
  inverted : Bool
  method : String
  params : List Node

/-- The groups that a node selects. An inverted set inverts each of its entries. -/
def selectGroups (selector : Node) : Except CompileError (List GroupSelector) :=
  match selector.text? with
  | some name => .ok [⟨lower name, selector.isInverted⟩]
  | none =>
      selector.children.mapM fun child =>
        match child.text? with
        | some name => .ok ⟨lower name, selector.isInverted || child.isInverted⟩
        | none => .error (.invalidChain (.selectorEntry child.kind))

/-- The entries of a parameter list at the front of nodes, and the nodes after it. -/
def takeParams : List Node → List Node × List Node
  | .params children _ :: rest => (children, rest)
  | nodes => ([], nodes)

theorem length_takeParams_le (nodes : List Node) : (takeParams nodes).2.length ≤ nodes.length := by
  unfold takeParams
  split <;> simp

/-- The segment that begins at a selector with `following` after it, and the nodes after the
segment. -/
def readSegment (instruction : String) (selector : Node) (following : List Node) :
    Except CompileError (Segment × List Node) := do
  let groups ← selectGroups selector
  match seek isRun following with
  | none => throw (.invalidChain (.noRun instruction))
  | some (_, method, rest) =>
      match method.text? with
      | none => throw (.invalidChain (.methodName instruction method.kind))
      | some name =>
          pure (⟨groups, selector.isInverted, name, (takeParams rest).1⟩, (takeParams rest).2)

theorem length_readSegment_lt {instruction : String} {selector : Node} {following rest : List Node}
    {segment : Segment} (h : readSegment instruction selector following = .ok (segment, rest)) :
    rest.length < following.length := by
  unfold readSegment at h
  cases hg : selectGroups selector with
  | error e =>
      rw [hg] at h
      cases h
  | ok groups =>
      rw [hg] at h
      simp only [bind, Except.bind] at h
      split at h
      · cases h
      · rename_i hs
        split at h
        · cases h
        · cases h
          have h₁ := length_seek_lt hs
          rename_i rest _ _ _
          have h₂ := length_takeParams_le rest
          omega

/-- The segments of nodes, up to the first that is not whole. -/
def segments (instruction : String) (nodes : List Node) : List (Except CompileError Segment) :=
  match hs : seek isSelector nodes with
  | none => []
  | some (selector, next, rest) =>
      match hr : readSegment instruction selector (next :: rest) with
      | .error e => [.error e]
      | .ok (segment, left) =>
          have : left.length < nodes.length := by
            have h₁ := length_seek_lt hs
            have h₂ := length_readSegment_lt hr
            simp only [List.length_cons] at h₂
            omega
          .ok segment :: segments instruction left
  termination_by nodes.length

def arguments (params : List Node) : Except CompileError (List Literal) :=
  params.mapM fun
    | .scalar literal _ => .ok literal
    | n => .error (.invalidArgument n.kind)

variable {σ : Type}

/-- The rule of a segment: its method is looked up, its arguments are read, and the method's factory
is called. -/
def compileSegment (registry : Registry σ) (instruction : String) (s : Segment) :
    CompileM CompileError σ Rule :=
  match registry.find? s.method with
  | none => throw (.unknownMethod s.method)
  | some factory => do
      let args ← liftExcept (arguments s.params)
      let transformer ← (factory args).adapt fun e => .method s.method instruction e
      pure ⟨s.groups, s.inverted, lower s.method, transformer⟩
where
  liftExcept {α : Type} (x : Except CompileError α) : CompileM CompileError σ α :=
    ExceptT.mk (pure x)

/-- The evaluator of nodes; `instruction` is their text for messages. -/
def compileNodes (registry : Registry σ) (instruction : String) (nodes : List Node) :
    CompileM CompileError σ Evaluator :=
  match segments instruction nodes with
  | [] => throw (.invalidChain (.noSelector instruction))
  | found => do
      let rules ← found.mapM fun s => do
        compileSegment registry instruction (← ExceptT.mk (pure s))
      pure ⟨instruction, rules⟩

def compile (registry : Registry σ) (instruction : String) : CompileM CompileError σ Evaluator :=
  compileNodes registry instruction (parse instruction)

end Redaction
