import McpTrust.Python.Lines
import McpTrust.Python.DictUpdate
import McpTrust.Python.JsonHooks
import McpTrust.Core.Patterns
import McpTrust.Refresh.Inputs
import McpTrust.Launch.State

/-! # Two readings of a dependency lock

The preparer checks a manifest and its lock before a cohort is built; the preflight
reads the same two files with patterns of its own.
-/

namespace McpTrust.Refresh

set_option autoImplicit false

open Python

def boundaryError (message : String) : PyErr := .app "DependencyBoundaryError" message

def insist (condition : Bool) (message : String) : Except PyErr Unit :=
  if condition then .ok () else .error (boundaryError message)

/-! ## Patterns -/

/-- The parts of a text between separators. -/
def fields (separator : CodePoint) (s : Str) : List Str := s.splitOn separator

/-- `0|[1-9][0-9]*`. -/
def isSemverPart (s : Str) : Bool :=
  decide (s ≠ []) && s.all isDigit && (decide (s.head? ≠ some (ch '0')) || decide (s.length = 1))

def isIdChar (c : CodePoint) : Bool := isAlnum c || decide (c = ch '-')

/-- `[0-9A-Za-z-]+(?:\.[0-9A-Za-z-]+)*`. -/
def isDotted (s : Str) : Bool := (fields (ch '.') s).all fun part => decide (part ≠ []) && part.all isIdChar

/-- `MAJOR.MINOR.PATCH`, with the pattern of a part. -/
def isCore (isPart : Str → Bool) (s : Str) : Bool :=
  match fields (ch '.') s with
  | [major, minor, patch] => isPart major && isPart minor && isPart patch
  | _ => false

/-- The text up to the first character of `stops`, and the text from it on. -/
def cut (stops : Str) (s : Str) : Str × Str :=
  (s.takeWhile fun c => decide (c ∉ stops), s.dropWhile fun c => decide (c ∉ stops))

/-- `_EXACT_SEMVER.fullmatch(version)`. -/
def isExactSemver (version : Str) : Bool :=
  let (core, rest) := cut (u "-+") version
  isCore isSemverPart core &&
    match rest with
    | [] => true
    | c :: rest =>
      if c = ch '+' then isDotted rest
      else
        let (release, build) := cut (u "+") rest
        isDotted release && (decide (build = []) || isDotted build.tail)

def isDigits (s : Str) : Bool := decide (s ≠ []) && s.all isDigit

/-- `[0-9]+\.[0-9]+\.[0-9]+(?:-[0-9A-Za-z.-]+)?`. -/
def isPlainVersion (version : Str) : Bool :=
  let (core, rest) := cut (u "-") version
  isCore isDigits core &&
    match rest with
    | [] => true
    | _ :: release => decide (release ≠ []) && release.all fun c => isIdChar c || decide (c = ch '.')

def isNameTail (c : CodePoint) : Bool := isLowerAlpha c || isDigit c || decide (c ∈ u "._~-")

/-- `[a-z0-9][a-z0-9._~-]*`. -/
def isLowerName : Str → Bool
  | [] => false
  | c :: rest => (isLowerAlpha c || isDigit c) && rest.all isNameTail

/-- `[A-Za-z0-9][A-Za-z0-9._~-]*`. -/
def isMixedName : Str → Bool
  | [] => false
  | c :: rest => isAlnum c && rest.all fun d => isNameTail d || isUpperAlpha d

/-- `@[a-z0-9][a-z0-9._~-]*`. -/
def isScope : Str → Bool
  | [] => false
  | c :: rest => decide (c = ch '@') && isLowerName rest

/-- `_NPM_NAME.fullmatch(name)`. -/
def isNpmName (name : Str) : Bool :=
  match fields (ch '/') name with
  | [package] => isLowerName package
  | [scope, package] => isScope scope && isLowerName package
  | _ => false

def modulesPart : Str := u "node_modules"

/-- The names of a lock path, outermost first. -/
def pathNames : List Str → Option (List Str)
  | marker :: scope :: package :: rest =>
    if marker = modulesPart then
      if isScope scope && isMixedName package then
        if rest = [] then some [scope ++ ch '/' :: package]
        else (pathNames rest).map fun names => (scope ++ ch '/' :: package) :: names
      else if isMixedName scope then (pathNames (package :: rest)).map fun names => scope :: names
      else none
    else none
  | [marker, package] => if marker = modulesPart ∧ isMixedName package = true then some [package] else none
  | _ => none

/-- The innermost name of a match of `_NPM_LOCK_PATH`. -/
def lockName (path : Str) : Option Str := (pathNames (fields (ch '/') path)).bind List.getLast?

/-- `sha512-[A-Za-z0-9+/]+={0,2}`. -/
def isIntegrity (s : Str) : Bool :=
  let digits := (s.drop 7).takeWhile fun c => isAlnum c || decide (c ∈ u "+/")
  (u "sha512-").isPrefixOf s && decide (digits ≠ []) &&
    decide (s.drop (7 + digits.length) ∈ [u "", u "=", u "=="])

/-- `text.rsplit(separator, 1)[-1]`. -/
def afterLast (separator : Str) : Str → Str
  | [] => []
  | c :: rest =>
    if isInfix separator rest then afterLast separator rest
    else if separator.isPrefixOf (c :: rest) then (c :: rest).drop separator.length
    else c :: rest

/-! ## npm, by the preparer -/

/-- `npm_dependencies(value)`. -/
def npmDependencies : Json → Except PyErr Dict
  | .obj entries => do
    insist (entries.all fun kv => isNpmName kv.1 && match kv.2 with
      | .str version => isExactSemver version
      | _ => false) "npm dependencies must use exact semver sources"
    .ok entries
  | _ => .error (boundaryError "npm dependency map is invalid")

/-- `npm_overrides(value, dependencies=…)`. -/
def npmOverrides (dependencies : Dict) : Json → Except PyErr Dict
  | .obj overrides => do
    insist (decide (overrides ≠ [])) "npm override map is invalid"
    overrides.mapM fun kv => do
      insist (Dict.contains dependencies kv.1 && match kv.2 with
        | .obj entries => decide (entries ≠ [])
        | _ => false) "npm override parent must be a direct dependency"
      let children ← npmDependencies kv.2
      .ok (kv.1, .obj children)
  | _ => .error (boundaryError "npm override map is invalid")

/-- The overrides of a manifest, `{}` where it has none. -/
def manifestOverrides (manifest dependencies : Dict) : Except PyErr Dict :=
  let overrides := (Dict.lookup manifest (u "overrides")).getD (.obj [])
  if truthy overrides then npmOverrides dependencies overrides
  else if overrides.pyEq (.obj []) then .ok []
  else .error (boundaryError "npm override map is invalid")

/-- What a caller expects of a manifest; the overrides may be left open. -/
structure Expected where
  dependencies : Option Json
  overrides : Option (Option Json)

/-- `validate_npm_lock` without its keyword arguments. -/
def Expected.unset : Expected := ⟨none, none⟩

def checkDependencies (dependencies : Dict) : Option Json → Except PyErr Unit
  | none => .ok ()
  | some expected => do
    let expected ← npmDependencies expected
    insist ((Json.obj dependencies).pyEq (.obj expected)) "npm manifest direct dependencies differ from descriptor"

def checkExpectedOverrides (manifest dependencies overrides : Dict) :
    Option (Option Json) → Except PyErr Unit
  | none => .ok ()
  | some none => insist (!Dict.contains manifest (u "overrides")) "npm manifest overrides differ from descriptor"
  | some (some expected) => do
    let expected ← npmOverrides dependencies expected
    insist ((Json.obj overrides).pyEq (.obj expected)) "npm manifest overrides differ from descriptor"

def registryUrl (name version : Str) : Str :=
  u "https://registry.npmjs.org/" ++ name ++ u "/-/" ++ afterLast (u "/") name ++ ch '-' :: version ++ u ".tgz"

/-- `package.get("link") is True`. -/
def isLinked (entry : Dict) : Bool :=
  match Dict.get entry "link" with
  | .bool linked => linked
  | _ => false

/-- One package of the lock; the name it is found under, or `none` where the preparer raises. -/
def preparedEntry (path : Str) (package : Json) : Option Str :=
  match lockName path, package with
  | some name, .obj entry =>
    match Dict.get entry "version", Dict.get entry "resolved", Dict.get entry "integrity" with
    | .str version, .str resolved, .str integrity =>
      if isLinked entry = false ∧ isExactSemver version = true ∧ isIntegrity integrity = true ∧
          Dict.contains entry (u "name") = false ∧ resolved = registryUrl name version ∧
          (lower resolved).all (fun c => decide (c ∉ u "%\\?#")) = true then
        some name
      else none
    | _, _, _ => none
  | _, _ => none

/-- The lock and its direct dependencies, as both readings compare them. -/
def bindsDependencies (lock : Dict) (packages : Dict) (dependencies : Json) : Bool :=
  (Dict.get lock "lockfileVersion").pyEq (.int 3) &&
    match Dict.lookup packages [] with
    | some (.obj root) => (Dict.get root "dependencies").pyEq dependencies
    | _ => false

/-- The entries other than the root. -/
def lockEntries (packages : Dict) : Dict := packages.filter fun kv => decide (kv.1 ≠ [])

/-- `_resolve_npm_dependency(packages, parent_path, name)`, by the enclosing directories. -/
def resolveFrom (packages : Dict) (name : Str) : Nat → Str → Option Str
  | 0, _ => none
  | fuel + 1, parent =>
    let candidate := if parent = [] then u "node_modules/" ++ name else parent ++ u "/node_modules/" ++ name
    if Dict.contains packages candidate then some candidate
    else if parent = [] then none
    else
      let inner := afterLast (u "/node_modules/") parent
      resolveFrom packages name fuel
        (if isInfix (u "/node_modules/") parent then parent.take (parent.length - inner.length - 14) else [])

def resolveNpmDependency (packages : Dict) (parent name : Str) : Option Str :=
  resolveFrom packages name (parent.length + 1) parent

/-- The names a package declares. -/
def declaredNames (package : Json) : Except PyErr (List Str) := do
  let entry := match package with
    | .obj entry => entry
    | _ => []
  let parts ← ["dependencies", "optionalDependencies", "peerDependencies"].mapM fun field =>
    match (Dict.lookup entry (u field)).getD (.obj []) with
    | .obj entries => .ok entries
    | _ => .error (boundaryError "npm override parent dependencies are invalid")
  .ok (Dict.keys (parts.foldl Dict.update []))

/-- The walk below the parents of an override; the number of edges to the overridden package. -/
def walkOverride (packages : Dict) (child : Str) (version : Json) :
    Nat → List Str → List Str → Nat → Except PyErr Nat
  | 0, _, _, count => .ok count
  | _ + 1, [], _, count => .ok count
  | fuel + 1, path :: pending, visited, count =>
    if path ∈ visited then walkOverride packages child version fuel pending visited count
    else do
      let declared ← declaredNames ((Dict.lookup packages path).getD .null)
      let edges := declared.map fun name => (name, resolveNpmDependency packages path name)
      insist (edges.all fun edge => decide (edge.1 ≠ child) || match edge.2 with
        | some target =>
          match (Dict.lookup packages target).getD .null with
          | .obj entry => (Dict.get entry "version").pyEq version
          | _ => false
        | none => false) "npm lock does not bind its parent-scoped override"
      walkOverride packages child version fuel ((edges.filterMap Prod.snd).reverse ++ pending) (path :: visited)
        (count + (edges.filter fun edge => decide (edge.1 = child)).length)

/-- Every package pushes its declared names once. -/
def walkFuel (packages : Dict) : Nat :=
  packages.length + 1 + (packages.map fun kv => match declaredNames kv.2 with
    | .ok names => names.length
    | .error _ => 0).sum

/-- The parent-scoped overrides of the lock. -/
def checkOverrides (packages : Dict) (overrides : Dict) : Except PyErr Unit := do
  let _ ← overrides.mapM fun override => do
    let suffix := u "node_modules/" ++ override.1
    let parents := (Dict.keys packages).filter fun path =>
      decide (path = suffix) || (ch '/' :: suffix).isSuffixOf path
    insist (decide (parents ≠ [])) "npm override parent is absent from lock"
    let children := match override.2 with
      | .obj children => children
      | _ => []
    children.mapM fun child => do
      let count ← walkOverride packages child.1 child.2 (walkFuel packages) parents.reverse [] 0
      insist (decide (count ≠ 0)) "npm override target is not a parent dependency"
  .ok ()

/-- The loop over the packages and the two checks on what it found. -/
def checkPackages (packages dependencies : Dict) : Except PyErr Unit := do
  let found := (lockEntries packages).map fun kv => preparedEntry kv.1 kv.2
  insist (found.all Option.isSome) "npm lock escapes the approved registry source"
  insist (decide (dependencies ≠ []) && (Dict.keys dependencies).all fun name => decide (some name ∈ found))
    "npm lock is incomplete"

/-- The packages of a lock that binds the direct dependencies. -/
def boundPackages (dependencies : Dict) : Json → Except PyErr Dict
  | .obj lock =>
    match Dict.get lock "packages" with
    | .obj packages => do
      insist (bindsDependencies lock packages (.obj dependencies)) "npm lock does not bind its direct dependencies"
      .ok packages
    | _ => .error (boundaryError "npm lock does not bind its direct dependencies")
  | _ => .error .attributeError

/-- The fields of an object; any other document has none. -/
def fieldsOf : Json → Dict
  | .obj entries => entries
  | _ => []

/-- `validate_npm_lock` on the two documents. -/
def validateNpmDocuments (expected : Expected) (manifest lock : Json) : Except PyErr Unit := do
  let manifest := fieldsOf manifest
  let dependencies ← npmDependencies (Dict.get manifest "dependencies")
  checkDependencies dependencies expected.dependencies
  let overrides ← manifestOverrides manifest dependencies
  checkExpectedOverrides manifest dependencies overrides expected.overrides
  let packages ← boundPackages dependencies lock
  checkPackages packages dependencies
  checkOverrides packages overrides

/-- `except (OSError, UnicodeError, json.JSONDecodeError)`. -/
def isUnreadableLock (e : PyErr) : Bool :=
  decide (e = .osError) || decide (e = .unicodeError) || decide (e = .jsonDecodeError)

def readDocuments (interp : Interpreter) (manifest lock : Option Bytes) : Except PyErr (Json × Json) :=
  catching
    (do
      let manifest ← readText manifest
      let manifest ← jsonLoads interp manifest
      let lock ← readText lock
      let lock ← jsonLoads interp lock
      .ok (manifest, lock))
    isUnreadableLock (.error (boundaryError "npm dependency inputs are unreadable"))

/-- `validate_npm_lock` on the two files; one that cannot be read is `none`. -/
def validateNpmLock (interp : Interpreter) (expected : Expected) (manifest lock : Option Bytes) :
    Except PyErr Unit := do
  let (manifest, lock) ← readDocuments interp manifest lock
  validateNpmDocuments expected manifest lock

/-! ## npm, by the preflight -/

/-- A direct dependency with a version of three numbers. -/
def isPlainPin (kv : Str × Json) : Bool :=
  decide (kv.1 ≠ []) && match kv.2 with
    | .str version => isPlainVersion version
    | _ => false

def preflightEntry (path : Str) : Json → Bool
  | .obj entry =>
    isInfix (u "node_modules/") path &&
      (match Dict.get entry "version" with | .str version => decide (version ≠ []) | _ => false) &&
      (match Dict.get entry "resolved" with
      | .str resolved => (u "https://registry.npmjs.org/").isPrefixOf resolved
      | _ => false) &&
      (match Dict.get entry "integrity" with | .str integrity => isIntegrity integrity | _ => false) &&
      !isLinked entry
  | _ => false

/-- The packages of a lock, beside plain direct dependencies. -/
def validPackages (lock packages dependencies : Dict) : Bool :=
  decide (2 ≤ packages.length) && bindsDependencies lock packages (.obj dependencies) &&
    ((lockEntries packages).all fun kv => preflightEntry kv.1 kv.2) &&
    (Dict.keys dependencies).all fun name =>
      decide (name ∈ (lockEntries packages).map fun kv => afterLast (u "node_modules/") kv.1)

/-- `_valid_npm_inputs` on the two documents; a lock that is no object has no `get`. -/
def validNpmDocuments (manifest lock : Json) : Except PyErr Bool :=
  match Dict.get (fieldsOf manifest) "dependencies" with
  | .obj dependencies =>
    if dependencies ≠ [] ∧ dependencies.all isPlainPin = true then
      match lock with
      | .obj lock =>
        match Dict.get lock "packages" with
        | .obj packages => .ok (validPackages lock packages dependencies)
        | _ => .ok false
      | _ => .error .attributeError
    else .ok false
  | _ => .ok false

/-- `_valid_npm_inputs(manifest_path, lock_path)`. -/
def validNpmInputs (interp : Interpreter) (manifest lock : Option Bytes) : Except PyErr Bool :=
  catching
    (do
      let manifest ← loadJson interp manifest
      let lock ← loadJson interp lock
      validNpmDocuments manifest lock)
    (PyErr.isApp "GradeRefreshError") (.ok false)

/-! ## Requirement lines -/

/-- The loop of both `_requirement_groups`: the groups, and the text of an unfinished one. -/
def groupLines (current : Str) : List Str → List Str × Str
  | [] => ([], current)
  | raw :: rest =>
    let line := strip raw
    if line = [] ∨ line.head? = some (ch '#') then groupLines current rest
    else
      let continued := (u "\\").isSuffixOf line
      let current := current ++ (if current = [] then [] else u " ") ++
        strip (if continued then line.dropLast else line)
      if continued then groupLines current rest
      else ((current :: (groupLines [] rest).1), (groupLines [] rest).2)

/-- `text.split("==", 1)`. -/
def splitPin : Str → Option (Str × Str)
  | [] => none
  | c :: rest =>
    if (u "==").isPrefixOf (c :: rest) then some ([], rest.drop 1)
    else (splitPin rest).map fun parts => (c :: parts.1, parts.2)

def isNamePoint (c : CodePoint) : Bool := isAlnum c || decide (c ∈ u "._-")

/-- `[A-Za-z0-9][A-Za-z0-9._-]*`. -/
def isPythonName : Str → Bool
  | [] => false
  | c :: rest => isAlnum c && rest.all isNamePoint

def isVersionPoint (c : CodePoint) : Bool := isAlnum c || decide (c ∈ u ".!+_-")

/-- `[A-Za-z0-9][A-Za-z0-9.!+_-]*`. -/
def isPythonVersion : Str → Bool
  | [] => false
  | c :: rest => isAlnum c && rest.all isVersionPoint

/-- `re.sub(r"[-_.]+", "-", name).lower()`. -/
def normalizedFrom (inRun : Bool) : Str → Str
  | [] => []
  | c :: rest =>
    if c ∈ u "-_." then if inRun then normalizedFrom true rest else ch '-' :: normalizedFrom true rest
    else lowerPoint c :: normalizedFrom false rest

def normalizedProjectName (name : Str) : Str := normalizedFrom false name

/-- `--hash=sha256:[0-9a-f]{64}` at the start of a text. -/
def startsHash (s : Str) : Bool := (u "--hash=sha256:").isPrefixOf s && isSha256 ((s.drop 14).take 64)

/-- `(?:\s+--hash=sha256:[0-9a-f]{64})+`, to the end of the text. -/
def isHashTail : Nat → Str → Bool
  | 0, _ => false
  | fuel + 1, s =>
    let hash := s.dropWhile isWhite
    s.head?.any isWhite && startsHash hash && (decide (hash.drop 78 = []) || isHashTail fuel (hash.drop 78))

/-! ## Python, by the preparer -/

def preparedGroups (text : Str) : Except PyErr (List Str) := do
  let (groups, left) := groupLines [] (splitLines text)
  insist (decide (left = [])) "python lock has an unterminated continuation"
  .ok groups

/-- A requirement of `python_requirements`. -/
def isExactPin (requirement : Str) : Bool :=
  match splitPin requirement with
  | some (name, version) => !isInfix (u "==") version && isPythonName name && isPythonVersion version
  | none => false

/-- `python_requirements(value)` on a list of texts. -/
def pythonRequirements (value : List Str) : Except PyErr (List Str) := do
  insist (value.all isExactPin) "python dependencies must use exact pins"
  insist (decide value.Nodup) "python dependencies contain duplicates"
  .ok value

/-- The versions of pins by normalized name; the last pin of a name wins. -/
def versionsFrom (versions : Dict) (pins : List (Str × Str)) : Dict :=
  pins.foldl (fun versions pin => versions.set (normalizedProjectName pin.1) (.str pin.2)) versions

/-- `group_pattern.fullmatch(group)`. -/
def lockedPin (group : Str) : Option (Str × Str) :=
  (splitPin group).bind fun parts =>
    let version := parts.2.takeWhile isVersionPoint
    let rest := parts.2.dropWhile isVersionPoint
    if isPythonName parts.1 = true ∧ isPythonVersion version = true ∧ isHashTail (group.length + 1) rest = true then
      some (parts.1, version)
    else none

def lockedVersions (versions : Dict) : List Str → Except PyErr Dict
  | [] => .ok versions
  | group :: groups =>
    match lockedPin group with
    | none => .error (boundaryError "python lock escapes the approved source policy")
    | some (name, version) =>
      if Dict.contains versions (normalizedProjectName name) then
        .error (boundaryError "python lock contains duplicate projects")
      else lockedVersions (versions.set (normalizedProjectName name) (.str version)) groups

/-- `all(locked.get(name) == version for name, version in direct.items())`. -/
def bindsVersions (locked direct : Dict) : Bool :=
  direct.all fun kv => ((Dict.lookup locked kv.1).getD .null).pyEq kv.2

/-- The two files of `validate_python_lock`; `read_text()` decodes UTF-8. -/
def readRequirements (manifest lock : Option Bytes) : Except PyErr (List Str × List Str) :=
  catching
    (do
      let manifest ← readText manifest
      let groups ← preparedGroups manifest
      let direct ← pythonRequirements groups
      let lock ← readText lock
      let locked ← preparedGroups lock
      .ok (direct, locked))
    (fun e => decide (e = .osError) || decide (e = .unicodeError))
    (.error (boundaryError "python dependency inputs are unreadable"))

/-- `validate_python_lock(manifest_path, lock_path)`. -/
def validatePythonLock (manifest lock : Option Bytes) : Except PyErr Unit := do
  let (direct, groups) ← readRequirements manifest lock
  let locked ← lockedVersions [] groups
  insist (decide (locked ≠ []) && bindsVersions locked (versionsFrom [] (direct.filterMap splitPin)))
    "python lock does not bind its direct requirements"

/-! ## Python, by the preflight -/

def preflightGroups (text : Str) : List Str :=
  let (groups, left) := groupLines [] (splitLines text)
  if left = [] then groups else groups ++ [left]

/-- `requirement.match(group)`. -/
def requirementMatch (group : Str) : Option (Str × Str) :=
  let name := group.takeWhile isNamePoint
  let rest := group.dropWhile isNamePoint
  let version := (rest.drop 2).takeWhile fun c => !isWhite c && decide (c ≠ ch ';')
  if isPythonName name = true ∧ (u "==").isPrefixOf rest = true ∧ version ≠ [] then some (name, version) else none

/-- A group of the manifest, which may not carry a hash. -/
def manifestPin (group : Str) : Option (Str × Str) :=
  if isInfix (u "--hash=") group then none else requirementMatch group

/-- A group of the lock, which must carry one. -/
def hashedPin (group : Str) : Option (Str × Str) :=
  if group.tails.any startsHash then requirementMatch group else none

/-- `_valid_python_inputs` on the groups of the two files. -/
def validPythonGroups (manifest lock : List Str) : Bool :=
  match manifest.mapM manifestPin, lock.mapM hashedPin with
  | some direct, some locked =>
    let direct := versionsFrom [] direct
    let locked := versionsFrom [] locked
    decide (direct ≠ []) && decide (direct.length = manifest.length) && decide (locked ≠ []) &&
      bindsVersions locked direct
  | _, _ => false

/-- `_valid_python_inputs(manifest_path, lock_path)`. -/
def validPythonInputs (manifest lock : Option Bytes) : Bool :=
  match readText manifest, readText lock with
  | .ok manifest, .ok lock => validPythonGroups (preflightGroups manifest) (preflightGroups lock)
  | _, _ => false

end McpTrust.Refresh
