import MigrationBench.Files.System

/-!
# Resolution of paths

A path is resolved part by part: a name is looked up in the directory reached so far, `..` leads to
the directory above it, and a symbolic link is replaced by the parts of its target. A directory in
which a part is looked up has to be one that may be searched.

* `Route` — the parts of a text as the resolution sees them.
* `FileSystem.advance` — the way along real directories, up to the end or to a link.
* `FileSystem.follow` — the way through links.
* `FileSystem.locate`, `FileSystem.locateEntry` — the place of a path, with and without the link
  that its last part may be.
-/

namespace MigrationBench

/-- The parts of a path text as the resolution sees them, and the size of the text in bytes. A slash
at the end asks for a directory, as an empty part does; a last part `.` is looked up in it as well. -/
structure Route where
  isAbsolute : Bool
  parts : List String
  size : Nat
deriving DecidableEq, Repr

namespace Route

/-- The parts between slashes. Of the empty ones only one after the last slash counts. -/
def partsOf (pieces : List (List Char)) : List String :=
  let named := pieces.filter (!·.isEmpty)
  let ending := if pieces.getLast?.any (·.isEmpty) then [[]] else []
  (named ++ ending).map String.ofList

/-- The route that a text describes. -/
def ofText (text : String) : Route where
  isAbsolute := text.toList.head? == some '/'
  parts := partsOf (Text.cutAt '/' text.toList)
  size := text.utf8ByteSize

/-- The route of a path name. -/
def ofPath (p : PathName) : Route where
  isAbsolute := p.root != .relative
  parts := p.parts
  size := p.render.utf8ByteSize

/-- The size in bytes from which a path text is too long. -/
def sizeLimit : Nat := 4096

/-- Whether a part holds a NUL, which no name can. -/
def hasNul (r : Route) : Bool :=
  r.parts.any fun part => part.toList.contains '\x00'

end Route

namespace FileSystem

/-- Where the way along real directories ends: at a place, at a link with parts still ahead, or at a
fault. -/
inductive Stop where
  | place (p : Place)
  | link (above : List String) (name target : String) (ahead : List String)
  | fault (cause : FileFault)

/-- The way along real directories from a directory. Every part but an empty one is looked up in the
directory reached so far. -/
def advance (fs : FileSystem) : List String → List String → Stop
  | here, [] => .place ⟨here, fs.node? here⟩
  | here, part :: ahead =>
    if part = "" then advance fs here ahead
    else if fs.maySearch here = false then .fault .denied
    else if part = "." then advance fs here ahead
    else if part = ".." then advance fs here.dropLast ahead
    else if Node.isLongName part then .fault .nameTooLong
    else
      let next := here ++ [part]
      match fs.node? next with
      | some (.directory _) => advance fs next ahead
      | some (.link target) => .link here part target ahead
      | found =>
        if ahead = [] then .place ⟨next, found⟩
        else .fault (if found.isSome then .notDirectory else .missing)

/-- The greatest number of links that are followed on the way to a file. -/
def maxLinks : Nat := 40

/-- The way through links from a directory. A link that the last part names is followed only if
`final` is set; the number of links is limited. -/
def follow (fs : FileSystem) (final : Bool) : Nat → List String → List String →
    Except FileFault Place
  | links, here, ahead =>
    match fs.advance here ahead with
    | .place p => .ok p
    | .fault cause => .error cause
    | .link above name target rest =>
      if rest = [] && !final then .ok ⟨above ++ [name], some (.link target)⟩
      else
        match links with
        | 0 => .error .linkLoop
        | links + 1 =>
          let route := Route.ofText target
          follow fs final links (if route.isAbsolute then [] else above) (route.parts ++ rest)

/-- The place of a route from the current directory. A text that is too long has none, wherever its
parts would lead. A relative route starts in the current directory, whatever its first part is. -/
def place (fs : FileSystem) (final : Bool) (r : Route) : Except FileFault Place :=
  if r.hasNul then .error .badName
  else if Route.sizeLimit ≤ r.size then .error .nameTooLong
  else if !r.isAbsolute && !fs.maySearch fs.cwd then .error .denied
  else fs.follow final maxLinks (if r.isAbsolute then [] else fs.cwd) r.parts

/-- The place that has to hold a node, with that node. -/
def present (p : Place) : Except FileFault (List String × Node) :=
  match p.node with
  | some node => .ok (p.location, node)
  | none => .error .missing

/-- The location and the node that a route leads to through all links. -/
def locate (fs : FileSystem) (r : Route) : Except FileFault (List String × Node) := do
  present (← fs.place true r)

/-- The location and the node that a route names, which may be a link. -/
def locateEntry (fs : FileSystem) (r : Route) : Except FileFault (List String × Node) := do
  present (← fs.place false r)

end FileSystem

end MigrationBench
