import QueryForest.Store.Address
import QueryForest.Store.Value

namespace QueryForest

/-!
# Options of the embedded store

The database to open comes from the variable `SQL_DATABASE` of the environment; when it is not set,
it is one in memory that all connections share.

* `StoreOptions.ofEnvironment` reads the variable;
* `StoreOptions.location?` is where the database is: in memory or in a file;
* `StoreOptions.connect` opens the database.
-/

/-- How to open the embedded store. -/
structure StoreOptions where
  database : String
  deriving DecidableEq

/-- What a database is opened for. -/
inductive OpenMode
  | read
  | write
  /-- Writing, to a file that need not exist. -/
  | create
  /-- No file at all. -/
  | memory
  deriving DecidableEq

/-- The mode with a given name. -/
def OpenMode.ofName? (name : List UInt8) : Option OpenMode :=
  if name = Address.bytes "ro" then some .read
  else if name = Address.bytes "rw" then some .write
  else if name = Address.bytes "rwc" then some .create
  else if name = Address.bytes "memory" then some .memory
  else none

/-- Whether a mode may follow another one: it asks for no more, or one of them is `memory`. -/
def OpenMode.allows : OpenMode → OpenMode → Bool
  | .memory, _ | _, .memory | .create, _ | .write, .write | _, .read => true
  | _, _ => false

/-- The way in which files are read and written. -/
inductive FileSystem
  | disk
  | memory
  deriving DecidableEq

/-- The file system with a given name; those on disk differ in how they lock a file. -/
def FileSystem.ofName? (name : List UInt8) : Option FileSystem :=
  if name ∈ ["unix", "unix-none", "unix-dotfile", "unix-excl"].map Address.bytes then some .disk
  else if name = Address.bytes "memdb" then some .memory
  else none

/-- The most bytes of a path, which leave room for the name of a journal. -/
def FileSystem.pathLimit : FileSystem → Nat
  | disk => 504
  | memory => 1016

/-- The most bytes of an element of a path on disk. -/
def FileSystem.elementLimit : Nat := 255

/-- Where a database is. -/
inductive Location
  /-- In memory, or in a file without a name that lasts as long as the connection. -/
  | memory
  | file (path : List UInt8) (mode : OpenMode)
  deriving DecidableEq

namespace StoreOptions

/-- The database where the variable is not set. -/
def sharedMemory : String := "file::memory:?cache=shared"

/-- The options for a value of the variable; a variable that is set to nothing counts. -/
def ofEnvironment (setting : Option String) : StoreOptions := ⟨setting.getD sharedMemory⟩

/-- Takes one parameter of an address into account; unknown ones do not count. -/
def setParameter? (mode : OpenMode) (system : List UInt8) (name value : List UInt8) :
    Option (OpenMode × List UInt8) :=
  if name = Address.bytes "vfs" then some (mode, value)
  else if name = Address.bytes "cache" then
    if value ∈ ["shared", "private"].map Address.bytes then some (mode, system) else none
  else if name = Address.bytes "mode" then
    (OpenMode.ofName? value).bind fun next => if mode.allows next then some (next, system) else none
  else some (mode, system)

/-- Where the database is, if its name makes sense: in memory for the names, modes and file systems
that say so, and for no name at all. A file in memory has a path, which is limited. -/
def location? (o : StoreOptions) : Option Location := do
  let address ← Address.ofName? (Address.bytes o.database)
  let (mode, system) ← address.parameters.foldlM
    (fun (mode, system) (name, value) => setParameter? mode system name value)
    (OpenMode.create, Address.bytes "unix")
  let system ← FileSystem.ofName? system
  if address.path = [] ∨ address.path = Address.bytes ":memory:" ∨ mode = .memory then
    some .memory
  else match system with
    | .memory => if address.path.length ≤ system.pathLimit then some .memory else none
    | .disk => some (.file address.path mode)

/-- The elements of a path, without empty ones and those that stay in place; the element before a
step up is dropped with it. A step up from the start of a relative path is kept. -/
def resolve (path : List UInt8) : List (List UInt8) :=
  let relative := path.head? ≠ some (Address.byte '/')
  (Address.split (Address.byte '/') path).foldl (fun elements next =>
    if next = [] ∨ next = Address.bytes "." then elements
    else if next = Address.bytes ".." then
      if elements = [] ∨ elements.getLast? = some next then
        if relative then elements ++ [next] else elements
      else elements.dropLast
    else elements ++ [next]) []

/-- Whether the parts of a path, and the path that it resolves to, are within the limits on disk. -/
def fits (path resolved : List UInt8) : Bool :=
  resolved.length ≤ FileSystem.disk.pathLimit &&
    (Address.split (Address.byte '/') path).all (·.length ≤ FileSystem.elementLimit)

/-- Opens the database. A file can be opened if it exists, or if it may be created and its directory
exists, as the root and the current one do. -/
def connect (exists? : List UInt8 → Bool) (o : StoreOptions) : Except StoreError Unit :=
  match o.location? with
  | none => .error .openDatabase
  | some .memory => .ok ()
  | some (.file path mode) =>
    let elements := resolve path
    let join (elements : List (List UInt8)) : List UInt8 :=
      let slash := Address.bytes "/"
      (if slash.isPrefixOf path then slash else []) ++ slash.intercalate elements
    let directory := elements.dropLast
    let present :=
      if mode = .create then directory.isEmpty || exists? (join directory)
      else exists? (join elements)
    if elements.getLast?.any (· ≠ Address.bytes "..") && fits path (join elements) && present then
      .ok ()
    else .error .openDatabase

end StoreOptions

end QueryForest
