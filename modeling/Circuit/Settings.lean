import Circuit.Codec.Decode

/-!
# Settings

The settings of the service: built-in values, over which environment variables count, over which
explicit values count.

* `Settings.explicit` reads the explicit values: the fields of an object, or a row of pairs.
* `Settings.load` joins the three.
-/

namespace Circuit.Settings

def builtIn : List (Text × Json) := [("DB_PATH", .str "db.json"), ("SECRET_KEY", .str "key")]

def variableName (key : Text) : Text := "ZKIR_" ++ key

/-- The value of a built-in setting under an environment. -/
def underEnvironment (environment : List (Text × Text)) (entry : Text × Json) : Text × Json :=
  match environment.lookup (variableName entry.1) with
  | some value => (entry.1, .str value)
  | none => entry

/-- One explicit setting: a pair whose first member may be a key. -/
def explicitPair (data : Json) : Except Fault (Json × Json) :=
  match data.pair with
  | .error fault => .error fault
  | .ok entry => if entry.1.isSetMember then .ok entry else .error .notSetMember

def named : Json × Json → Except Fault (Text × Json)
  | (.str key, value) => .ok (key, value)
  | _ => .error .notText

/-- Explicit settings from JSON data: the fields of an object, or the pairs of a row. Data that is false
as a condition holds none. -/
def explicit (data : Json) : Except Fault (List (Text × Json)) :=
  match data with
  | .obj fields => .ok fields
  | data =>
      if data.truth then do
        let pairs ← (← data.items).mapM explicitPair
        pairs.mapM named
      else .ok []

/-- The settings with some of them set explicitly, in order. -/
def override (settings values : List (Text × Json)) : List (Text × Json) :=
  values.foldl (fun settings entry => Json.setField entry.1 entry.2 settings) settings

/-- The settings under an environment; only the built-in ones are looked for there. -/
def load (environment : List (Text × Text)) (explicit : List (Text × Json)) :
    List (Text × Json) :=
  override (builtIn.map (underEnvironment environment)) explicit

end Circuit.Settings
