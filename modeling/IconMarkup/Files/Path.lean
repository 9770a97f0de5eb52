/-!
# Paths

A path is a sequence of pieces between slashes, and is written back as it was spelled. What it
means is its components: empty pieces and `.` do not count, except that an empty piece at the
beginning is the root and a `.` at the beginning of a relative path is the working directory.
Nothing here looks at a file system; `..` is a component like any other.
-/

namespace IconMarkup.Files

/-! ### Pieces and components -/

/-- A path as its pieces between slashes. -/
structure Path where
  /-- The pieces; a path that begins with a slash begins with an empty piece. -/
  pieces : List String
  deriving DecidableEq, Repr

/-- A component of a path. -/
inductive Component where
  /-- The root directory. -/
  | root
  /-- The working directory, written `.` at the beginning. -/
  | here
  /-- The directory above. -/
  | above
  /-- An entry of a directory. -/
  | name (name : String)
  deriving DecidableEq, Repr

/-- Cuts a text at its slashes. -/
def splitSlashes : List Char → List (List Char)
  | [] => [[]]
  | c :: cs =>
    if c = '/' then [] :: splitSlashes cs
    else match splitSlashes cs with
      | [] => [[c]]
      | piece :: rest => (c :: piece) :: rest

/-- Whether a piece counts for nothing inside a path. -/
def isFiller (piece : String) : Bool :=
  piece == "" || piece == "."

/-- The component that a piece inside a path stands for. -/
def Component.ofPiece? (piece : String) : Option Component :=
  if isFiller piece then none
  else if piece = ".." then some .above
  else some (.name piece)

/-- The part of a file name before its last dot, and the part after it. A dot at the beginning does
not count. -/
def splitExtension (name : List Char) : List Char × Option (List Char) :=
  match name.reverse.dropWhile (· != '.') with
  | '.' :: c :: before => ((c :: before).reverse, some (name.reverse.takeWhile (· != '.')).reverse)
  | _ => (name, none)

/-! ### Texts and bodies -/

namespace Path

/-- The path that a text spells. -/
def ofString (text : String) : Path :=
  ⟨(splitSlashes text.toList).map String.ofList⟩

/-- The spelling of a path. -/
def toString (path : Path) : String :=
  String.intercalate "/" path.pieces

/-- The empty path. -/
def empty : Path := ⟨[""]⟩

/-- Whether a path spells nothing. -/
def isEmpty (path : Path) : Bool :=
  path.pieces = [] ∨ path = empty

/-- Whether a path begins at the root. -/
def isAbsolute (path : Path) : Bool :=
  match path.pieces with
  | "" :: _ :: _ => true
  | _ => false

/-- The component that the first piece of a path stands for, if it is a special one. -/
def head? (path : Path) : Option Component :=
  match path.pieces with
  | "" :: _ :: _ => some .root
  | "." :: _ => some .here
  | _ => none

/-- The pieces after the special first one. -/
def body (path : Path) : List String :=
  if path.head?.isSome then path.pieces.tail else path.pieces

/-- The components of a path. -/
def components (path : Path) : List Component :=
  path.head?.toList ++ path.body.filterMap Component.ofPiece?

/-- The path with a special first component and further pieces. -/
def ofBody (head : Option Component) (body : List String) : Path :=
  match head, body with
  | some .root, [] => ⟨["", ""]⟩
  | some .root, body => ⟨"" :: body⟩
  | some .here, body => ⟨"." :: body⟩
  | _, [] => empty
  | _, body => ⟨body⟩

/-- Drops the pieces at the end that count for nothing. -/
def trimEnd (pieces : List String) : List String :=
  (pieces.reverse.dropWhile isFiller).reverse

/-! ### Names and parents -/

/-- The pieces without the empty ones at the end: slashes at the end do not count. -/
def unslashed (path : Path) : List String :=
  (path.pieces.reverse.dropWhile (· == "")).reverse

/-- The last component, if it is a name. -/
def fileName? (path : Path) : Option String :=
  match path.components.getLast? with
  | some (.name name) => some name
  | _ => none

/-- The part of the file name after its last dot. -/
def extension? (path : Path) : Option String := do
  let extension ← (splitExtension (← path.fileName?).toList).2
  return String.ofList extension

/-- The path without its last component. The root and the empty path have none. -/
def parent? (path : Path) : Option Path :=
  match trimEnd path.body with
  | [] => if path.head? = some .here then some empty else none
  | body => some (ofBody path.head? (trimEnd body.dropLast))

/-- How far a path is from one that has no parent, at most. -/
def depth (path : Path) : Nat :=
  2 * path.pieces.countP (!isFiller ·) + if path.head? = some .here then 1 else 0

theorem countP_pieces_ofBody (head : Option Component) (body : List String) :
    (ofBody head body).pieces.countP (!isFiller ·) = body.countP (!isFiller ·) := by
  rcases body with _ | ⟨piece, body⟩
  · rcases head with _ | _ | _ | _ | _ <;> rfl
  · rcases head with _ | _ | _ | _ | _ <;> simp [ofBody, isFiller]

theorem countP_trimEnd_le (pieces : List String) :
    (trimEnd pieces).countP (!isFiller ·) ≤ pieces.countP (!isFiller ·) := by
  rw [trimEnd, List.countP_reverse, ← List.countP_reverse (l := pieces)]
  exact (List.dropWhile_sublist _).countP_le

/-- The last piece that is not dropped counts. -/
theorem countP_dropLast_trimEnd {pieces : List String} (h : trimEnd pieces ≠ []) :
    (trimEnd pieces).dropLast.countP (!isFiller ·) < pieces.countP (!isFiller ·) := by
  refine Nat.lt_of_lt_of_le ?_ (countP_trimEnd_le pieces)
  rw [trimEnd] at h ⊢
  rcases hkept : pieces.reverse.dropWhile isFiller with _ | ⟨last, before⟩
  · exact absurd (by rw [hkept]; rfl) h
  · have hlast := List.head?_dropWhile_not isFiller pieces.reverse
    rw [hkept, List.head?_cons] at hlast
    simp [hlast]

/-- A parent is closer to the end of the way up. -/
theorem depth_lt_of_parent? {path parent : Path} (h : path.parent? = some parent) :
    parent.depth < path.depth := by
  rw [parent?] at h
  split at h
  · split at h
    · rename_i hhere
      cases h
      rw [depth, depth, if_pos hhere]
      exact Nat.lt_succ_of_le (Nat.zero_le _)
    · cases h
  · rename_i hne
    cases h
    have hbody : path.body.countP (!isFiller ·) ≤ path.pieces.countP (!isFiller ·) := by
      rw [body]
      split
      · exact (List.tail_sublist _).countP_le
      · exact Nat.le_refl _
    have hlt := countP_dropLast_trimEnd hne
    have hle := countP_trimEnd_le (trimEnd path.body).dropLast
    rw [depth, depth, countP_pieces_ofBody]
    split <;> omega

/-- A path and the paths above it, from the inside out. -/
def ancestors (path : Path) : List Path :=
  path :: match _h : path.parent? with
    | none => []
    | some parent => parent.ancestors
termination_by path.depth
decreasing_by exact depth_lt_of_parent? _h

/-! ### Joining and stripping -/

/-- The path of an entry below a directory; an absolute path stays what it is. -/
def join (path other : Path) : Path :=
  if other.isAbsolute || path = empty then other
  else if path.pieces.getLast? = some "" then ⟨path.pieces.dropLast ++ other.pieces⟩
  else ⟨path.pieces ++ other.pieces⟩

/-- The pieces after a number of components. -/
def afterComponents : Nat → List String → List String
  | 0, pieces => pieces
  | _ + 1, [] => []
  | n + 1, piece :: rest =>
    if isFiller piece then afterComponents (n + 1) rest else afterComponents n rest

/-- The path from a directory to an entry below it: what follows after the components of the
directory, in its spelling. -/
def stripPrefix? (path base : Path) : Option Path :=
  let components := base.components
  if components.isPrefixOf path.components then
    if components.isEmpty then some (ofBody path.head? (trimEnd path.body))
    else
      let body := afterComponents (components.length - path.head?.toList.length) path.body
      some (ofBody none (trimEnd (body.dropWhile isFiller)))
  else none

/-! ### Extensions -/

/-- A file name with another extension, or with one if it has none. Where nothing but a dot is left
before the extension, the name becomes `..`. -/
def renameExtension (name extension : String) : String :=
  match splitExtension name.toList with
  | (['.'], some _) => ".."
  | (stem, _) => String.ofList stem ++ "." ++ extension

/-- The path with another extension of its file name. A path without file name stays as it is. -/
def withExtension (path : Path) (extension : String) : Path :=
  match path.fileName? with
  | some name =>
    ofBody path.head? ((trimEnd path.body).dropLast ++ [renameExtension name extension])
  | none => path

end Path

end IconMarkup.Files
