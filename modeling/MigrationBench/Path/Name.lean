import MigrationBench.Text.Lines

/-!
# Path names

Path names as texts denote them: slashes at the start, and the parts between slashes. Repeated
slashes, a slash at the end and `.` parts do not count; `..` stays.

* `PathName.ofString`, `PathName.render` — from text and back.
* `PathName.join` — a name below another one; an absolute name replaces it.
* `PathName.parent` — the name without its last part.
-/

namespace MigrationBench

/-- How a path name starts. Exactly two slashes are kept apart from one. -/
inductive PathRoot where
  | relative
  | single
  | double
deriving DecidableEq, Repr

/-- Whether a list of characters can stand as a part of a path name. -/
def isPathPart (cs : List Char) : Bool :=
  !cs.isEmpty && cs != ['.'] && !cs.contains '/'

/-- A path name. -/
structure PathName where
  root : PathRoot
  parts : List String
  parts_ok : parts.all (fun p => isPathPart p.toList) = true
deriving DecidableEq, Repr

namespace PathName

/-- The start of a text with so many slashes. -/
def rootOf (slashes : Nat) : PathRoot :=
  if slashes = 0 then .relative else if slashes = 2 then .double else .single

/-- The parts between the slashes of a text. -/
def partsOf (cs : List Char) : List String :=
  ((Text.cutAt '/' cs).filter isPathPart).map String.ofList

theorem all_partsOf (cs : List Char) :
    (partsOf cs).all (fun p => isPathPart p.toList) = true := by
  simp only [partsOf, List.all_eq_true, List.mem_map, List.mem_filter, forall_exists_index, and_imp]
  rintro p piece - hpiece rfl
  simpa using hpiece

/-- The path name that a text denotes. -/
def ofString (s : String) : PathName :=
  ⟨rootOf (s.toList.takeWhile (· == '/')).length, partsOf s.toList, all_partsOf _⟩

/-- The slashes at the start. -/
def rootText : PathRoot → String
  | .relative => ""
  | .single => "/"
  | .double => "//"

/-- The text of a path name; the empty relative name is written as a point. -/
def render (p : PathName) : String :=
  if p.root = .relative ∧ p.parts = [] then "."
  else rootText p.root ++ String.intercalate "/" p.parts

/-- The name `q` below `p`, or `q` itself if it is absolute. -/
def join (p q : PathName) : PathName :=
  if q.root = .relative then
    ⟨p.root, p.parts ++ q.parts, by rw [List.all_append, p.parts_ok, q.parts_ok]; rfl⟩
  else q

/-- The name that a text denotes below `p`. -/
def below (p : PathName) (text : String) : PathName :=
  p.join (ofString text)

/-- The name without its last part. -/
def parent (p : PathName) : PathName :=
  ⟨p.root, p.parts.dropLast, by
    have h := p.parts_ok
    rw [List.all_eq_true] at h ⊢
    exact fun x hx => h x ((List.dropLast_sublist _).subset hx)⟩

/-- Whether a text holds a NUL, which no file name can. -/
def hasNul (p : PathName) : Bool :=
  p.parts.any fun part => part.toList.contains '\x00'

end PathName

end MigrationBench
