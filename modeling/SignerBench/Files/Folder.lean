import SignerBench.Bytes.Basic

namespace SignerBench.Files

abbrev Place := List String

mutual

inductive Node where
  | file (content : Bytes)
  | dir (folder : Folder)

inductive Folder where
  | nil
  | cons (name : String) (node : Node) (rest : Folder)

end

namespace Folder

def get? (name : String) : Folder → Option Node
  | nil => none
  | cons n node rest => if n = name then some node else get? name rest

/-- Puts a node in the place of the one of this name, or behind all others. -/
def set (name : String) (node : Node) : Folder → Folder
  | nil => cons name node nil
  | cons n old rest => if n = name then cons n node rest else cons n old (set name node rest)

def erase (name : String) : Folder → Folder
  | nil => nil
  | cons n node rest => if n = name then erase name rest else cons n node (erase name rest)

def names : Folder → List String
  | nil => []
  | cons n _ rest => n :: names rest

theorem get?_set (f : Folder) (name other : String) (node : Node) :
    (f.set name node).get? other = if name = other then some node else f.get? other := by
  fun_induction set name node f with
  | case1 => simp [get?]
  | case2 old rest => by_cases h : name = other <;> simp [get?, h]
  | case3 n old rest h ih =>
    by_cases hn : n = other
    · subst hn; simp [get?, Ne.symm h]
    · simp [get?, hn, ih]

theorem get?_erase (f : Folder) (name other : String) :
    (f.erase name).get? other = if name = other then none else f.get? other := by
  fun_induction erase name f with
  | case1 => simp [get?]
  | case2 node rest ih => rw [ih]; by_cases h : name = other <;> simp [get?, h]
  | case3 n node rest h ih =>
    by_cases hn : n = other
    · subst hn; simp [get?, Ne.symm h]
    · simp [get?, hn, ih]

end Folder

mutual

/-- The files with their content and the directories that are empty, each behind the names that lead to it. -/
def Node.contents : Node → List (Place × Option Bytes)
  | .file content => [([], some content)]
  | .dir folder => if folder.names.isEmpty then [([], none)] else folder.contents

def Folder.contents : Folder → List (Place × Option Bytes)
  | .nil => []
  | .cons name node rest => (node.contents.map fun (p, content) => (name :: p, content)) ++ rest.contents

end

end SignerBench.Files
