import MixinCatalog.Path

/-!
# File systems

A file system is a list of entries, each at a place of its own, and the directory that relative
paths start from. Paths are followed name by name, so that `..` and a slash at the end ask for a
directory in front of them; there are no links.
-/

namespace MixinCatalog

/-- Whether some characters can be a name: there are some, none of them is a slash, and they are
neither of the two steps `.` and `..`. -/
def IsName (s : List Char) : Prop := s ≠ [] ∧ s ≠ ['.'] ∧ s ≠ ['.', '.'] ∧ '/' ∉ s

instance (s : List Char) : Decidable (IsName s) := inferInstanceAs (Decidable (_ ∧ _ ∧ _ ∧ _))

@[ext] structure Name where
  text : String
  isName : IsName text.toList
deriving DecidableEq, Repr

def Name.ofChars? (s : List Char) : Option Name :=
  if h : IsName s then some ⟨String.ofList s, by simpa using h⟩ else none

theorem Name.ofChars?_toList (name : Name) : Name.ofChars? name.text.toList = some name := by
  simp [ofChars?, name.isName]

/-- A place: the names on the way from the top directory. -/
abbrev Place := List Name

/-- The names of a place with slashes between them. -/
def Place.spelled (place : Place) : String := "/".intercalate (place.map Name.text)

/-- What stands at a place. -/
inductive Entry where
  | file (bytes : ByteArray)
  | directory
deriving Inhabited

instance : DecidableEq Entry
  | .file a, .file b => match ByteArray.decEq a b with
    | isTrue h => isTrue (by rw [h])
    | isFalse h => isFalse (by simpa using h)
  | .directory, .directory => isTrue rfl
  | .file _, .directory => isFalse (by simp)
  | .directory, .file _ => isFalse (by simp)

inductive IoError where
  | notFound
  | notDirectory
  | isDirectory
  | notUtf8
  | noSpace
deriving DecidableEq, Repr

def IoError.message : IoError → String
  | notFound => "No such file or directory (os error 2)"
  | notDirectory => "Not a directory (os error 20)"
  | isDirectory => "Is a directory (os error 21)"
  | notUtf8 => "stream did not contain valid UTF-8"
  | noSpace => "No space left on device (os error 28)"

/-- The names from a directory to a place below it. -/
def Place.below? : Place → Place → Option Place
  | [], rest => some rest
  | a :: as, b :: bs => if a = b then below? as bs else none
  | _ :: _, [] => none

theorem Place.below?_eq_some_iff {dir place names : Place} :
    Place.below? dir place = some names ↔ place = dir ++ names := by
  induction dir generalizing place with
  | nil => simp [below?]
  | cons a as ih =>
    cases place with
    | nil => simp [below?]
    | cons b bs =>
      by_cases h : a = b
      · simp [below?, h, ih]
      · simp [below?, h, Ne.symm h]

/-- A file system as seen from a working directory. The top directory has no entry of its own. -/
structure FileSystem where
  entries : List (Place × Entry)
  /-- No two entries stand at the same place. -/
  distinct : (entries.map Prod.fst).Nodup
  /-- Where relative paths start. -/
  current : Place

namespace FileSystem

def empty : FileSystem := ⟨[], by simp, []⟩

/-! ### Entries -/

/-- What stands at a place. -/
def get? (fs : FileSystem) : Place → Option Entry
  | [] => some .directory
  | place => (fs.entries.find? (·.1 == place)).map (·.2)

/-- Put an entry at a place, instead of the one that stood there. -/
def insert (fs : FileSystem) (place : Place) (entry : Entry) : FileSystem where
  entries := (place, entry) :: fs.entries.filter (·.1 != place)
  distinct := by
    rw [List.map_cons, List.nodup_cons]
    constructor
    · simp
    · exact List.Sublist.nodup (List.filter_sublist.map _) fs.distinct
  current := fs.current

theorem get?_insert_self (fs : FileSystem) {place : Place} (entry : Entry) (h : place ≠ []) :
    (fs.insert place entry).get? place = some entry := by
  cases place with
  | nil => exact absurd rfl h
  | cons a as => simp [get?, insert]

theorem get?_insert_of_ne (fs : FileSystem) {place other : Place} (entry : Entry)
    (h : other ≠ place) : (fs.insert place entry).get? other = fs.get? other := by
  cases other with
  | nil => rfl
  | cons a as =>
    have hne : (place == a :: as) = false := by simpa using fun e => h e.symm
    simp only [get?, insert, List.find?_cons, hne, List.find?_filter]
    congr 2
    funext e
    by_cases he : e.1 = a :: as
    · simp [he, h]
    · simp [he]

/-- Take away the entry at a place and all entries below it. -/
def remove (fs : FileSystem) (place : Place) : FileSystem where
  entries := fs.entries.filter fun e => (Place.below? place e.1).isNone
  distinct := List.Sublist.nodup (List.filter_sublist.map _) fs.distinct
  current := fs.current

/-- Put directories at the places on the way to a place where nothing stands yet. -/
def makeParents (fs : FileSystem) (place : Place) : FileSystem :=
  (List.range place.length).foldl
    (fun fs n =>
      if (fs.get? (place.take n)).isSome then fs else fs.insert (place.take n) .directory)
    fs

/-! ### Paths -/

def step (fs : FileSystem) (place : Place) (segment : List Char) : Except IoError Place :=
  match fs.get? place with
  | none => .error .notFound
  | some (.file _) => .error .notDirectory
  | some .directory =>
    if segment = [] || segment = ['.'] then .ok place
    else if segment = ['.', '.'] then .ok place.dropLast
    else match Name.ofChars? segment with
      | some name => .ok (place ++ [name])
      | none => .error .notFound

def start (fs : FileSystem) (p : Path) : Place := if p.isAbsolute then [] else fs.current

/-- The place that a path leads to. All but the last name must be there. -/
def resolve (fs : FileSystem) (p : Path) : Except IoError Place :=
  if p.text.isEmpty then .error .notFound
  else p.segments.foldlM fs.step (fs.start p)

def lookup (fs : FileSystem) (p : Path) : Except IoError Entry :=
  match fs.resolve p with
  | .error e => .error e
  | .ok place =>
    match fs.get? place with
    | some entry => .ok entry
    | none => .error .notFound

def contains (fs : FileSystem) (p : Path) : Bool := (fs.lookup p).isOk

def isFile (fs : FileSystem) (p : Path) : Bool :=
  match fs.lookup p with
  | .ok (.file _) => true
  | _ => false

def currentPath (fs : FileSystem) : Except IoError Path :=
  match fs.get? fs.current with
  | some .directory => .ok ⟨"/" ++ fs.current.spelled⟩
  | _ => .error .notFound

/-! ### Files -/

def read (fs : FileSystem) (p : Path) : Except IoError String :=
  match fs.lookup p with
  | .error e => .error e
  | .ok .directory => .error .isDirectory
  | .ok (.file bytes) =>
    match String.fromUTF8? bytes with
    | some text => .ok text
    | none => .error .notUtf8

/-- The place where a path creates or replaces a file. -/
def target (fs : FileSystem) (p : Path) : Except IoError Place :=
  if p.text.isEmpty then .error .notFound
  else
    let segments := (p.segments.reverse.dropWhile List.isEmpty).reverse
    let endsInSlash := segments.length < p.segments.length
    match segments.foldlM fs.step (fs.start p) with
    | .error e => .error e
    | .ok place =>
      match fs.get? place with
      | some .directory => .error .isDirectory
      | some (.file _) => if endsInSlash then .error .notDirectory else .ok place
      | none => if endsInSlash then .error .isDirectory else .ok place

/-- Open a file to write to. It is there afterwards, and nothing is in it. -/
def create (fs : FileSystem) (p : Path) : Except IoError (Place × FileSystem) :=
  match fs.target p with
  | .error e => .error e
  | .ok place => .ok (place, fs.insert place (.file .empty))

/-- Add bytes at the end of the file at a place. -/
def append (fs : FileSystem) (place : Place) (bytes : ByteArray) : FileSystem :=
  match fs.get? place with
  | some (.file old) => fs.insert place (.file (old ++ bytes))
  | _ => fs

/-- The files of a file system that another one does not have like that. -/
def newFiles (before after : FileSystem) : List (Place × ByteArray) :=
  after.entries.filterMap fun
    | (place, .file bytes) =>
      if before.get? place = some (.file bytes) then none else some (place, bytes)
    | (_, .directory) => none

end FileSystem

end MixinCatalog
