import Mathlib.Data.List.Basic

/-! Finite directory trees: named entries below a directory, with the node that a
path leads to. Links and devices are nodes that are neither a file nor a directory. -/
namespace FileTree

universe u

/-- Failures of the system that callers tell apart. -/
inductive IoError where
  | notFound
  | other
deriving DecidableEq, Repr

mutual

inductive Node (ν : Type u) where
  | file (bytes : List UInt8)
  | directory (entries : Entries ν)
  /-- Anything else, with what reading it through would give. -/
  | special (reads : Except IoError (List UInt8))

inductive Entries (ν : Type u) where
  | nil
  | cons (name : ν) (node : Node ν) (rest : Entries ν)

end

variable {ν : Type u}

/-- What reading a node through gives. -/
def Node.read : Node ν → Except IoError (List UInt8)
  | .file bytes => .ok bytes
  | .directory _ => .error .other
  | .special reads => reads

section

variable [DecidableEq ν]

def Entries.get? : Entries ν → ν → Option (Node ν)
  | .nil, _ => none
  | .cons name node rest, wanted => if name = wanted then some node else rest.get? wanted

/-- The node at a path. A node on the way that is no directory has nothing below it. -/
def Node.stat : Node ν → List ν → Except IoError (Node ν)
  | node, [] => .ok node
  | .directory entries, name :: path =>
      match entries.get? name with
      | some node => node.stat path
      | none => .error .notFound
  | .file _, _ :: _ => .error .other
  | .special _, _ :: _ => .error .other

mutual

/-- Names are allowed, and no directory has two entries of one name. -/
def Node.WellFormed (allowed : ν → Prop) : Node ν → Prop
  | .directory entries => entries.WellFormed allowed
  | .file _ => True
  | .special _ => True

def Entries.WellFormed (allowed : ν → Prop) : Entries ν → Prop
  | .nil => True
  | .cons name node rest => allowed name ∧ rest.get? name = none ∧ node.WellFormed allowed ∧
      rest.WellFormed allowed

end

theorem stat_cons_self (name : ν) (node : Node ν) (rest : Entries ν) (path : List ν) :
    (Node.directory (.cons name node rest)).stat (name :: path) = node.stat path := by
  rw [Node.stat, Entries.get?, if_pos rfl]

theorem stat_cons_of_ne {name wanted : ν} (h : name ≠ wanted) (node : Node ν) (rest : Entries ν)
    (path : List ν) : (Node.directory (.cons name node rest)).stat (wanted :: path) =
      (Node.directory rest).stat (wanted :: path) := by
  rw [Node.stat, Node.stat, Entries.get?, if_neg h]

/-- A name that is not there leads nowhere. -/
theorem stat_of_get_none {entries : Entries ν} {name : ν} (h : entries.get? name = none)
    (path : List ν) : (Node.directory entries).stat (name :: path) = .error .notFound := by
  rw [Node.stat, h]

mutual

/-- Every name on the way to a node is allowed. -/
theorem Node.WellFormed.names {allowed : ν → Prop} {node found : Node ν} {path : List ν} :
    node.WellFormed allowed → node.stat path = .ok found → ∀ name ∈ path, allowed name := by
  intro hWell hStat
  match node, path with
  | _, [] => exact fun _ h => absurd h List.not_mem_nil
  | .directory entries, name :: path => exact Entries.WellFormed.names hWell hStat
  | .file _, _ :: _ => cases hStat
  | .special _, _ :: _ => cases hStat

theorem Entries.WellFormed.names {allowed : ν → Prop} {entries : Entries ν} {found : Node ν} {path : List ν} :
    entries.WellFormed allowed → (Node.directory entries).stat path = .ok found →
      ∀ name ∈ path, allowed name := by
  intro hWell hStat
  match entries, path with
  | _, [] => exact fun _ h => absurd h List.not_mem_nil
  | .nil, wanted :: path =>
      rw [stat_of_get_none rfl] at hStat
      cases hStat
  | .cons name node rest, wanted :: path =>
      obtain ⟨hName, -, hNode, hRest⟩ := hWell
      by_cases hSame : name = wanted
      · subst hSame
        rw [stat_cons_self] at hStat
        exact List.forall_mem_cons.mpr ⟨hName, Node.WellFormed.names hNode hStat⟩
      · rw [stat_cons_of_ne hSame] at hStat
        exact Entries.WellFormed.names hRest hStat

end

end

end FileTree
