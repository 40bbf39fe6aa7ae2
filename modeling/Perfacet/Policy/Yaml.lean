import Mathlib.Data.Int.Notation
import Mathlib.Tactic.SplitIfs
import Perfacet.Ir.Request

/-!
# YAML nodes

What the gateway uses of the YAML library: the tree of a document, how a member of a mapping is
found, how a sequence is gone through, and how a node is converted. The conversions themselves are
the library's; they are what a `YamlReader` has.

## Main definitions

* `YamlNode`, `YamlNode.get`, `YamlNode.elements` — a node, its members and its elements
* `YamlReader` — the conversions
* `YamlNode.setting`, `YamlNode.within` — a member, or a section, that may be left out
-/

namespace Perfacet

/-- A node of a document. -/
inductive YamlNode
  | null
  | scalar (text : String)
  | sequence (items : List YamlNode)
  | map (entries : List (YamlNode × YamlNode))

/-- What loading throws: an error of its own with a text, or what the library throws. -/
inductive LoadError
  | runtime (text : String)
  | badSubscript
  | badConversion
  | invalidNode
  deriving DecidableEq, Repr

/-- The conversions `as<std::string>`, `as<bool>`, `as<int>`, and those to unsigned numbers. -/
structure YamlReader where
  text : YamlNode → Option String
  bool : YamlNode → Option Bool
  int : YamlNode → Option ℤ
  unsigned : YamlNode → Option UInt64

/-- `if (bad) throw error`. -/
def reject (bad : Prop) [Decidable bad] (e : LoadError) : Except LoadError Unit :=
  if bad then .error e else .ok ()

theorem reject_eq_ok {bad : Prop} [Decidable bad] {e : LoadError} {u : Unit} :
    reject bad e = .ok u ↔ ¬ bad := by
  rw [reject]
  split_ifs with h <;> simp [h]

namespace YamlNode

variable {α β : Type}

def isMap : YamlNode → Bool
  | .map _ => true
  | _ => false

/-- Only a scalar is equal to a key. -/
def isKey (key : String) : YamlNode → Bool
  | .scalar text => text = key
  | _ => false

/-- `node[key]`: undefined if the node has no such member; a scalar has no members at all. -/
def get (node : YamlNode) (key : String) : Except LoadError (Option YamlNode) :=
  match node with
  | .map entries => .ok ((entries.find? fun e => isKey key e.1).map Prod.snd)
  | .null | .sequence _ => .ok none
  | .scalar _ => .error .badSubscript

/-- What a loop over a node goes through. The entries of a mapping are pairs, and no nodes. -/
def elements : YamlNode → List (Option YamlNode)
  | .sequence items => items.map some
  | .map entries => entries.map fun _ => none
  | .null | .scalar _ => []

/-- `as<T>()`. -/
def as (read : YamlNode → Option α) : Option YamlNode → Except LoadError α
  | none => .error .invalidNode
  | some node =>
    match read node with
    | some x => .ok x
    | none => .error .badConversion

/-- `if (node[key]) x = node[key].as<T>()`. -/
def setting (node : YamlNode) (key : String) (read : YamlNode → Option α) (default : α) :
    Except LoadError α := do
  match ← node.get key with
  | none => pure default
  | some v => as read (some v)

/-- A section that may be left out. -/
def within (node : YamlNode) (key : String) (load : YamlNode → Except LoadError β) (default : β) :
    Except LoadError β := do
  match ← node.get key with
  | none => pure default
  | some part => load part

/-- The elements of a node, each converted. -/
def list (read : YamlNode → Option α) (node : YamlNode) : Except LoadError (List α) :=
  node.elements.mapM (as read)

variable {node : YamlNode} {read : YamlNode → Option α} {x : α} {items : List YamlNode}
  {xs : List α}

theorem as_eq_ok : as read (some node) = .ok x ↔ read node = some x := by
  rw [as]
  cases read node <;> simp

end YamlNode

end Perfacet
