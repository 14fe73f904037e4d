import UbootTftp.Dict
import UbootTftp.Errors

/-!
# Daemon configuration

The loader receives the parsed configuration file. It observes a value of the
file only through its text and its truth value, and a section only through the
table that `dict` makes of it, which fails for most values that are no table.
-/

namespace UbootTftp

/-- What the loader observes of a value: `str(value)` and `bool(value)`. -/
structure TomlValue where
  text : Text
  truthy : Bool

/-- What `dict(section)` yields for a top-level value of the file. -/
abbrev TomlSection := Except Raised (Dict Text TomlValue)

/-- The entry function of a route and its environment. -/
structure ScriptRoute where
  entryFunc : Text
  env : Dict Text Text

/-- A configuration as the server uses it: the tables of the file under the names that the source
gives them. -/
structure DaemonConfig where
  server : Dict Text TomlValue
  env : Dict Text Text
  routes : Dict Text ScriptRoute
  default : ScriptRoute

/-- `Path(text).is_absolute()`. -/
def isAbsolute (text : Text) : Bool := ['/'].isPrefixOf text

/-- The first truthy one of the three root settings, or else the last of them. -/
def rootSetting (server : Dict Text TomlValue) : Option TomlValue :=
  let truthy (key : String) := (server.get key.toList).filter TomlValue.truthy
  truthy "rootdir" <|> truthy "static_root" <|> server.get "tftproot".toList

/-- A configured root must be an absolute path. Without a root there is nothing to check. -/
def validateServerPaths (server : Dict Text TomlValue) : Except Raised Unit :=
  match rootSetting server with
  | none => .ok ()
  | some root => if isAbsolute root.text then .ok () else .error .rootNotAbsolute

/-- The environment keys that every script the server generates reads. -/
def requiredEnv : List Text := ["rambase".toList, "cmdtftp".toList, "cmdtftpput".toList]

/-- A base environment has to define every variable that a generated script reads. The exception
names those that are missing. -/
def validateBaseEnv (env : Dict Text Text) : Except Raised Unit :=
  let missing := requiredEnv.filter (fun key => decide (key ∉ env.keys))
  if missing = [] then .ok () else .error (.missingEnv missing)

/-- The text of every value of a table. -/
def textValues (values : Dict Text TomlValue) : Dict Text Text :=
  Dict.ofList (values.entries.map (fun entry => (entry.1, entry.2.text)))

/-- The environment of a route: its section without the entry function. -/
def routeEnv (values : Dict Text TomlValue) : Dict Text Text :=
  textValues (values.erase "entry_func".toList)

/-- One section that is neither of the three with a meaning of their own. The function's name is
required, and the other keys go into the environment of the route. -/
def loadRoute (name : Text) (table : TomlSection) : Except Raised ScriptRoute := do
  let route ← table
  match route.get "entry_func".toList with
  | none => .error (.missingEntryFunc name)
  | some entryFunc => .ok ⟨entryFunc.text, routeEnv route⟩

/-- Add the routes of the listed sections under their lower-cased names. Two sections whose names
differ in case only give one route, that of the later section. -/
def loadRoutes (data : List (Text × TomlSection)) (routes : Dict Text ScriptRoute) :
    Except Raised (Dict Text ScriptRoute) :=
  data.foldlM (fun routes entry =>
    if entry.1 ∈ ["server".toList, "env".toList, "default".toList] then .ok routes
    else do
      let route ← loadRoute entry.1 entry.2
      .ok (routes.set (Text.lower entry.1) route)) routes

/-- A section of the file, empty when absent. -/
def tomlSection (data : Dict Text TomlSection) (name : String) : TomlSection :=
  (data.get name.toList).getD (.ok Dict.empty)

/-- Build and check the configuration of a parsed file; `rootdir` overrides the root that the file
sets. The checks come in the order of the source, which decides what is raised for a file with
several faults. -/
def loadDaemonConfig (data : Dict Text TomlSection) (rootdir : Option Text) :
    Except Raised DaemonConfig := do
  let server ← tomlSection data "server"
  let server := match rootdir with
    | some root => server.set "rootdir".toList ⟨root, root ≠ []⟩
    | none => server
  validateServerPaths server
  let env := textValues (← tomlSection data "env")
  validateBaseEnv env
  let defaultSection ← tomlSection data "default"
  let defaultEntryFunc := match defaultSection.get "entry_func".toList with
    | some entryFunc => entryFunc.text
    | none => "default".toList
  let routes ← loadRoutes data.entries Dict.empty
  .ok ⟨server, env, routes, ⟨defaultEntryFunc, routeEnv defaultSection⟩⟩

/-- An accepted base environment defines every required key. The keys that are missing are listed in
the error, so an empty list is what acceptance means. -/
theorem validate_base_env_ok (env : Dict Text Text) (accepted : validateBaseEnv env = .ok ()) :
    ∀ key ∈ requiredEnv, env.get key ≠ none := by
  intro key member absent
  have listed : key ∈ requiredEnv.filter (fun key => decide (key ∉ env.keys)) := by
    refine List.mem_filter.mpr ⟨member, decide_eq_true ?_⟩
    rw [Dict.mem_keys]
    exact fun stored => stored absent
  unfold validateBaseEnv at accepted
  simp only at accepted
  split at accepted
  · rename_i none
    rw [none] at listed
    cases listed
  · cases accepted

/-- The base environment of a loaded configuration defines every required key. Sessions inherit it,
so the scripts of the server can always be built; this is what the results about requests use of the
loader. -/
theorem loaded_env (data : Dict Text TomlSection) (rootdir : Option Text) (config : DaemonConfig)
    (loaded : loadDaemonConfig data rootdir = .ok config) :
    ∀ key ∈ requiredEnv, config.env.get key ≠ none := by
  simp only [loadDaemonConfig, Except.bind_eq_ok] at loaded
  obtain ⟨server, -, -, -, env, -, checked, accepted, default, -, routes, -, built⟩ := loaded
  cases built
  exact validate_base_env_ok (textValues env) accepted

end UbootTftp
