import WifiOffload.Library.Bytes

/-!
# Walking paths through a directory tree

A directory is the list of names that leads to it from the root. A path is walked name by name:
`.` and an empty name stay, `..` goes up, and a name that is a symbolic link goes where the link
leads. `locate` is where a path leads, `visited` what must exist for the walk to get there, and
`canonical` the walk through the directories that do exist.
-/

/-- A directory, as the names that lead to it from the root. -/
abbrev Dir := List Bytes

instance Dir.lawfulBEq : LawfulBEq Dir := inferInstance

/-- `std::filesystem::path`: the names between the slashes. A slash at the end of the text
leaves an empty last name. -/
structure FsPath where
  absolute : Bool
  names : List Bytes
  deriving DecidableEq, Repr

namespace FsPath

def slash : UInt8 := 47

def parse (text : Bytes) : FsPath :=
  let names := (text.splitOn slash).filter (· ≠ [])
  { absolute := text.head? = some slash
    names := if names ≠ [] ∧ text.getLast? = some slash then names ++ [[]] else names }

def parentPath (p : FsPath) : FsPath := { p with names := p.names.dropLast }

def filename (p : FsPath) : Bytes := p.names.getLast?.getD []

def isEmpty (p : FsPath) : Bool := !p.absolute && p.names = []

/-- The names that a system call sees: text from the first zero byte on is lost. -/
def cNames : List Bytes → List Bytes
  | [] => []
  | name :: names => if 0 ∈ name then [Bytes.cString name] else name :: cNames names

theorem cNames_ne_nil {names : List Bytes} (h : names ≠ []) : cNames names ≠ [] := by
  cases names with
  | nil => exact absurd rfl h
  | cons name names =>
    unfold cNames
    split <;> simp

end FsPath

namespace PathWalk

/-- Where the symbolic links lead. -/
abbrev Links := Dir → Option Dir

def dot : Bytes := Bytes.ascii "."

def dotDot : Bytes := Bytes.ascii ".."

/-- Names that lead to a directory without being an entry of the one they are read in. -/
def isDots (name : Bytes) : Bool := name = [] || name = dot || name = dotDot

variable (links : Links)

/-- Where a name leads from a directory. -/
def enter (cur : Dir) (name : Bytes) : Dir :=
  if name = [] ∨ name = dot then cur
  else if name = dotDot then cur.dropLast
  else (links (cur ++ [name])).getD (cur ++ [name])

/-- Where a list of names leads. -/
def locate (cur : Dir) (names : List Bytes) : Dir := names.foldl (enter links) cur

/-- The directories that a walk comes to, the last one included. -/
def visited (cur : Dir) : List Bytes → List Dir
  | [] => []
  | name :: names => enter links cur name :: visited (enter links cur name) names

/-- The walk through existing directories. -/
def canonical (dirs : List Dir) (cur : Dir) (names : List Bytes) : Option Dir :=
  if visited links cur names ⊆ dirs then some (locate links cur names) else none

variable {links}

theorem canonical_eq_some {dirs : List Dir} {cur d : Dir} {names : List Bytes} :
    canonical links dirs cur names = some d ↔
      visited links cur names ⊆ dirs ∧ locate links cur names = d := by
  simp [canonical]

/-- A walk along at least one name ends at a directory that it visits. -/
theorem locate_mem_visited {names : List Bytes} (hne : names ≠ []) (cur : Dir) :
    locate links cur names ∈ visited links cur names := by
  induction names generalizing cur with
  | nil => exact absurd rfl hne
  | cons name names ih =>
    rw [locate, List.foldl_cons, visited, List.mem_cons]
    cases names with
    | nil => exact .inl rfl
    | cons name' names' => exact .inr (ih (by simp) (enter links cur name))

end PathWalk
