import AbiBridge.Assoc
import AbiBridge.Files.Path
import AbiBridge.Text.Quoted

/-!
A tree of files.

A `FileTree` holds files with their bytes, and directories, by their places as seen from the
working directory: what lies in it or below, what lies above or beside it, with a `..` for each step
up, and what is named from the root. Where the working directory lies is not known, so a place that
is named from the root is none of the others, and there are no links from one place to another.
A path is followed part by part, and every place on the way has to be a directory;
a name and a path have a greatest length.
The operations that change the tree are `Filing`s; one that fails half-way leaves what it did up
to there.

* `node?_put_self` and `node?_put_of_ne`: putting something at a place changes that place alone;
* `node?_eq_none_of_height_lt`: there is nothing further up than the height of the tree.
-/

namespace AbiBridge

open Text

/-- What lies at a place. -/
inductive Node where
  | directory
  | file (content : ByteArray)

/-- Why an operation on files failed. -/
inductive FileProblem where
  /-- There is nothing at the path. -/
  | missing
  /-- There is something at the path already. -/
  | existing
  /-- Something on the way is no directory. -/
  | notDirectory
  /-- There is a directory where a file was to be. -/
  | isDirectory
  /-- The path, or a name in it, is too long. -/
  | tooLong
  /-- The path holds the null character. -/
  | nullCharacter
  deriving DecidableEq, Repr

/-- A failed operation on files: what is wrong, and with which path. -/
structure FileFault where
  problem : FileProblem
  path : String
  deriving DecidableEq, Repr

namespace FileFault

/-- The wording of a fault. -/
def message (fault : FileFault) : String :=
  let shown := quoted fault.path
  match fault.problem with
  | .missing => s!"[Errno 2] No such file or directory: {shown}"
  | .existing => s!"[Errno 17] File exists: {shown}"
  | .notDirectory => s!"[Errno 20] Not a directory: {shown}"
  | .isDirectory => s!"[Errno 21] Is a directory: {shown}"
  | .tooLong => s!"[Errno 36] File name too long: {shown}"
  | .nullCharacter => "embedded null byte"

end FileFault

/-- A place: the names of the directories from the working directory, or from the root if the
first one is a slash. -/
abbrev Location := List String

namespace Location

/-- The place where a path begins. -/
def ofAnchor : Anchor → Location
  | .relative => []
  | _ => ["/"]

/-- One step from a place; `..` leads back. -/
def child (loc : Location) (part : String) : Location :=
  if part = ".." then
    match loc.getLast? with
    | none => [".."]
    | some ".." => loc ++ [".."]
    | some "/" => loc
    | some _ => loc.dropLast
  else loc ++ [part]

/-- The place a path leads to if everything on the way is a directory. -/
def ofPath (p : Path) : Location := p.parts.foldl child (ofAnchor p.anchor)

/-- Whether a place is the working directory, one above it, or the root. -/
def isBase (loc : Location) : Bool := loc.all (· = "..") || loc = ["/"]

/-- Whether a place is the working directory or lies below it. -/
def isInside (loc : Location) : Bool := loc.head?.all fun part => part != ".." && part != "/"

/-- Whether a place is named from the root. -/
def isRooted (loc : Location) : Bool := loc.head? = some "/"

/-- How many steps up a place begins with. -/
def ups (loc : Location) : Nat := (loc.takeWhile (· = "..")).length

/-- The place and those on the way to it in which it lies, from the innermost. -/
def ancestors (loc : Location) : List Location :=
  let outermost := if loc.isInside then 0 else if loc.isRooted then 1 else loc.ups
  ((List.range (loc.length + 1)).drop outermost).reverse.map loc.take

/-- The places above all of those, from the innermost, up to the given height above the working
directory. Above the root there is none. -/
def above (loc : Location) (height : Nat) : List Location :=
  if loc.isRooted then []
  else (List.range' (loc.ups + 1) (height - loc.ups)).map fun n => List.replicate n ".."

/-- What is further up comes last. -/
theorem exists_above_eq_append (loc : Location) {m n : Nat} (h : m ≤ n) :
    ∃ ks : List Nat, loc.above n = loc.above m ++ ks.map (fun k => List.replicate k "..") ∧
      ∀ k ∈ ks, m < k := by
  rw [above, above]
  split
  · exact ⟨[], rfl, fun _ hk => absurd hk List.not_mem_nil⟩
  · have hsplit : n - loc.ups = (m - loc.ups) + ((n - loc.ups) - (m - loc.ups)) := by omega
    refine ⟨List.range' (loc.ups + 1 + (m - loc.ups)) ((n - loc.ups) - (m - loc.ups)), ?_, ?_⟩
    · rw [hsplit, ← List.range'_append_1, List.map_append, ← hsplit]
    · intro k hk
      have hleast := (List.mem_range'_1.mp hk).1
      omega

theorem ups_replicate_concat (n : Nat) (name : String) (h : name ≠ "..") :
    ups (List.replicate n ".." ++ [name]) = n := by
  rw [ups, List.takeWhile_append_of_pos (by simp), List.length_append]
  simp [h]

/-- A place whose last part has a name is none of those that are always directories. -/
theorem isBase_concat (loc : Location) {name : String} (hback : name ≠ "..") (hroot : name ≠ "/") :
    isBase (loc ++ [name]) = false := by
  rw [isBase, Bool.or_eq_false_iff, decide_eq_false_iff_not]
  constructor
  · simp [hback]
  · intro h
    have hlast := congrArg List.getLast? h
    rw [List.getLast?_concat] at hlast
    exact hroot (Option.some.inj hlast)

end Location

/-- Files and directories by their places. -/
structure FileTree where
  entries : List (Location × Node) := []

namespace FileTree

/-- What lies at a place. -/
def node? (t : FileTree) (loc : Location) : Option Node :=
  if loc.isBase then some .directory else t.entries.lookup loc

/-- The tree with something put at a place, in the stead of what was there. -/
def put (t : FileTree) (loc : Location) (node : Node) : FileTree :=
  ⟨Assoc.put loc node t.entries⟩

theorem node?_put_self (t : FileTree) {loc : Location} (hloc : loc.isBase = false) (node : Node) :
    (t.put loc node).node? loc = some node := by
  simp only [node?, hloc, put, Bool.false_eq_true, if_false]
  exact Assoc.lookup_put_self loc node t.entries

theorem node?_put_of_ne (t : FileTree) {loc other : Location} (hne : other ≠ loc) (node : Node) :
    (t.put loc node).node? other = t.node? other := by
  simp only [node?, put]
  rw [Assoc.lookup_put_of_ne hne]

/-- How far above the working directory something lies in the tree. -/
def height (t : FileTree) : Nat := t.entries.foldr (fun e n => max e.1.ups n) 0

/-- There is nothing further up than that. -/
theorem node?_eq_none_of_height_lt {t : FileTree} {loc : Location} (hloc : loc.isBase = false)
    (h : t.height < loc.ups) : t.node? loc = none := by
  obtain ⟨entries⟩ := t
  rw [node?, hloc, if_neg Bool.false_ne_true]
  rw [height] at h
  induction entries with
  | nil => rfl
  | cons e entries ih =>
      rw [List.foldr_cons, Nat.max_lt] at h
      have hother : loc ≠ e.1 := by
        rintro rfl
        exact Nat.lt_irrefl _ h.1
      rw [List.lookup_cons, beq_false_of_ne hother]
      exact ih h.2

/-- How many bytes a name may have. -/
def nameLimit : Nat := 255

/-- How many bytes a path may have. -/
def pathLimit : Nat := 4095

/-- The place that the parts lead to from `loc`, over directories only. -/
def walk (t : FileTree) (loc : Location) : List String → Except FileProblem Location
  | [] => pure loc
  | part :: rest =>
      match t.node? loc with
      | none => throw .missing
      | some (.file _) => throw .notDirectory
      | some .directory =>
          if nameLimit < part.utf8ByteSize then throw .tooLong else walk t (loc.child part) rest

/-- The place that a path leads to. -/
def locate (t : FileTree) (p : Path) : Except FileProblem Location :=
  if p.hasNull then throw .nullCharacter
  else if pathLimit < p.text.utf8ByteSize then throw .tooLong
  else t.walk (.ofAnchor p.anchor) p.parts

/-- What lies at a path, if anything does. -/
def at? (t : FileTree) (p : Path) : Option Node :=
  match t.locate p with
  | .ok loc => t.node? loc
  | .error _ => none

/-- Whether a path leads to a file. That one is too long to be followed is a fault. -/
def isFile (t : FileTree) (p : Path) : Except FileFault Bool :=
  match t.locate p with
  | .error .tooLong => .error ⟨.tooLong, p.text⟩
  | .error _ => .ok false
  | .ok loc =>
      match t.node? loc with
      | some (.file _) => .ok true
      | _ => .ok false

/-- Whether a path leads to a directory. -/
def isDirectory (t : FileTree) (p : Path) : Bool :=
  match t.at? p with
  | some .directory => true
  | _ => false

/-- The bytes of the file at a path. -/
def read (t : FileTree) (p : Path) : Except FileFault ByteArray :=
  match t.locate p with
  | .error problem => throw ⟨problem, p.text⟩
  | .ok loc =>
      match t.node? loc with
      | none => throw ⟨.missing, p.text⟩
      | some .directory => throw ⟨.isDirectory, p.text⟩
      | some (.file content) => pure content

/-- The files with their places, in the order in which they were made. -/
def files (t : FileTree) : List (Location × ByteArray) :=
  t.entries.filterMap fun
    | (loc, .file content) => some (loc, content)
    | (_, .directory) => none

/-- The tree with a file at a place, and directories on the way to it. -/
def withFile (t : FileTree) (loc : Location) (content : ByteArray) : FileTree :=
  let above := (loc.ancestors.drop 1).reverse.filter fun l => (t.node? l).isNone
  (above.foldl (fun t l => t.put l .directory) t).put loc (.file content)

end FileTree

/-! ### Changing the tree -/

/-- An operation on a tree of files. -/
abbrev Filing := EStateM FileFault FileTree

namespace Filing

/-- Makes one directory in an existing one. -/
def makeDirectory (p : Path) : Filing Unit := do
  let t ← get
  match t.locate p with
  | .error problem => throw ⟨problem, p.text⟩
  | .ok loc =>
      if (t.node? loc).isSome then throw ⟨.existing, p.text⟩
      else set (t.put loc .directory)

/-- Passes over the fault of making a directory that is there already. -/
def unlessDirectory (p : Path) (fault : FileFault) : Filing Unit := do
  if (← get).isDirectory p then pure () else throw fault

/-- Makes a directory and, before it, those it is to lie in; the parts come in reverse. -/
def makeDirectoriesUp (anchor : Anchor) : (reversed : List String) → Filing Unit
  | [] => do
      let p : Path := ⟨anchor, []⟩
      tryCatch (makeDirectory p) fun fault =>
        if fault.problem = .missing then throw fault else unlessDirectory p fault
  | part :: above => do
      let p : Path := ⟨anchor, (part :: above).reverse⟩
      tryCatch (makeDirectory p) fun fault =>
        if fault.problem = .missing then do
          makeDirectoriesUp anchor above
          tryCatch (makeDirectory p) fun fault =>
            if fault.problem = .missing then throw fault else unlessDirectory p fault
        else unlessDirectory p fault

/-- Makes a directory with all those it is to lie in, unless it is there already. -/
def makeDirectories (p : Path) : Filing Unit := makeDirectoriesUp p.anchor p.parts.reverse

/-- Writes a text into the file at a path, in the stead of what it held. -/
def write (p : Path) (text : String) : Filing Unit := do
  let t ← get
  match t.locate p with
  | .error problem => throw ⟨problem, p.text⟩
  | .ok loc =>
      match t.node? loc with
      | some .directory => throw ⟨.isDirectory, p.text⟩
      | _ => set (t.put loc (.file text.toUTF8))

end Filing

end AbiBridge
