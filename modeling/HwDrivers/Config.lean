import HwDrivers.Scanf

/-! `read_config_from_file` of the two servers. The file is read with one
`fscanf(file, "<key>=%d\n", &field)` per line, in a chain of `!= 1 ||` tests;
each `fscanf` stores its value straight into the live configuration, before the
next line is tried. -/

namespace HwDrivers

/-- The format `"<key>=%d\n"`. -/
def keyFormat (key : String) : List ScanDirective := lits key ++ [.lit '=', .int, .space]

/-- One `fscanf` of a key line: the value it stores, when it returns `1`, and
what it leaves of the file. -/
def scanKey (key : String) (f : List Char) : Option (ℤ × List Char) :=
  match scanf (keyFormat key) f with
  | ([.int v], rest) => some (v, rest)
  | _ => none

/-- A field of `server_config_t` that the file sets: its key and its store. -/
structure ConfigField (C : Type) where
  key : String
  store : C → ℤ → C

variable {C : Type}

/-- The chain of `fscanf` tests over the fields, in order: `0` when every line
is read, `-2` at the first that is not. -/
def scanFields : List (ConfigField C) → List Char → C → ℤ × C
  | [], _, c => (0, c)
  | fd :: fs, f, c =>
    match scanKey fd.key f with
    | some (v, rest) => scanFields fs rest (fd.store c v)
    | none => (-2, c)

/-- `read_config_from_file` over its fields: `-1` when `fopen` fails
(`none`), else the chain over the file's contents. -/
def readConfig (fields : List (ConfigField C)) (file : Option (List Char)) (c : C) : ℤ × C :=
  match file with
  | none => (-1, c)
  | some f => scanFields fields f c

/-- The values the file gives for the keys, line after line, up to the first
line that does not read. -/
def keyValues : List String → List Char → List ℤ
  | [], _ => []
  | key :: keys, f =>
    match scanKey key f with
    | some (v, rest) => v :: keyValues keys rest
    | none => []

theorem keyValues_length_le (keys : List String) (f : List Char) :
    (keyValues keys f).length ≤ keys.length := by
  induction keys generalizing f with
  | nil => simp [keyValues]
  | cons key keys ih =>
    simp only [keyValues]
    split
    · exact Nat.succ_le_succ (ih _)
    · simp

/-- The first fields stored with the values, one each; the others untouched. -/
def storeAll : List (ConfigField C) → List ℤ → C → C
  | fd :: fs, v :: vs, c => storeAll fs vs (fd.store c v)
  | _, _, c => c

theorem scanFields_eq (fs : List (ConfigField C)) (f : List Char) (c : C) :
    scanFields fs f c =
      (if (keyValues (fs.map (·.key)) f).length = fs.length then 0 else -2,
        storeAll fs (keyValues (fs.map (·.key)) f) c) := by
  induction fs generalizing f c with
  | nil => rfl
  | cons fd fs ih =>
    simp only [scanFields, List.map_cons, keyValues]
    rcases Option.eq_none_or_eq_some (scanKey fd.key f) with h | ⟨⟨v, rest⟩, h⟩ <;>
      simp [h, ih, storeAll]

namespace CacheServer

/-- `server_config_t` of the cache server. The fields are C `int`s; the file's
values are kept exact. -/
structure ServerConfig where
  max_connnections : ℤ
  backlog : ℤ
  port : ℤ
  deriving DecidableEq, Repr

def DEFAULT_SERVER_CONFIG : ServerConfig := ⟨10, 5, 3737⟩

/-- The lines of `server_config.cfg`, in the order they are read. -/
def configFields : List (ConfigField ServerConfig) :=
  [⟨"max_connections", fun c v => { c with max_connnections := v }⟩,
    ⟨"backlog", fun c v => { c with backlog := v }⟩,
    ⟨"port", fun c v => { c with port := v }⟩]

def readConfigFromFile : Option (List Char) → ServerConfig → ℤ × ServerConfig :=
  readConfig configFields

theorem storeAll_configFields {vs : List ℤ} (h : vs.length ≤ 3) (cfg : ServerConfig) :
    storeAll configFields vs cfg =
      ⟨vs.getD 0 cfg.max_connnections, vs.getD 1 cfg.backlog, vs.getD 2 cfg.port⟩ :=
  match vs, h with
  | [], _ | [_], _ | [_, _], _ | [_, _, _], _ => rfl

/-- A file that opens: each field whose line, and every line before it, was
read holds the file's value, every other field keeps its value, and the result
is `0` exactly when all three lines were read, `-2` otherwise. -/
theorem readConfigFromFile_some (f : List Char) (cfg : ServerConfig) :
    let vs := keyValues ["max_connections", "backlog", "port"] f
    readConfigFromFile (some f) cfg =
      (if vs.length = 3 then 0 else -2,
        ⟨vs.getD 0 cfg.max_connnections, vs.getD 1 cfg.backlog, vs.getD 2 cfg.port⟩) := by
  show scanFields configFields f cfg = _
  rw [scanFields_eq, storeAll_configFields (keyValues_length_le (configFields.map (·.key)) f)]
  rfl

/-- A file whose first line reads and whose second is missing: the reload
returns `-2` with `max_connections` already overwritten. -/
theorem readConfigFromFile_partial :
    readConfigFromFile (some "max_connections=3\n".toList) DEFAULT_SERVER_CONFIG =
      (-2, { DEFAULT_SERVER_CONFIG with max_connnections := 3 }) := by
  decide

end CacheServer

namespace Server

/-- `server_config_t` of the plain server, with its filter window. -/
structure ServerConfig where
  max_connnections : ℤ
  backlog : ℤ
  port : ℤ
  filter_window_samples : ℤ
  deriving DecidableEq, Repr

def DEFAULT_SERVER_CONFIG : ServerConfig := ⟨10, 5, 3737, 5⟩

def configFields : List (ConfigField ServerConfig) :=
  [⟨"max_connections", fun c v => { c with max_connnections := v }⟩,
    ⟨"backlog", fun c v => { c with backlog := v }⟩,
    ⟨"port", fun c v => { c with port := v }⟩,
    ⟨"filter_window_samples", fun c v => { c with filter_window_samples := v }⟩]

def readConfigFromFile : Option (List Char) → ServerConfig → ℤ × ServerConfig :=
  readConfig configFields

theorem storeAll_configFields4 {vs : List ℤ} (h : vs.length ≤ 4) (cfg : ServerConfig) :
    storeAll configFields vs cfg =
      ⟨vs.getD 0 cfg.max_connnections, vs.getD 1 cfg.backlog, vs.getD 2 cfg.port,
        vs.getD 3 cfg.filter_window_samples⟩ :=
  match vs, h with
  | [], _ | [_], _ | [_, _], _ | [_, _, _], _ | [_, _, _, _], _ => rfl

theorem readConfigFromFile_some (f : List Char) (cfg : ServerConfig) :
    let vs := keyValues ["max_connections", "backlog", "port", "filter_window_samples"] f
    readConfigFromFile (some f) cfg =
      (if vs.length = 4 then 0 else -2,
        ⟨vs.getD 0 cfg.max_connnections, vs.getD 1 cfg.backlog, vs.getD 2 cfg.port,
          vs.getD 3 cfg.filter_window_samples⟩) := by
  show scanFields configFields f cfg = _
  rw [scanFields_eq, storeAll_configFields4 (keyValues_length_le (configFields.map (·.key)) f)]
  rfl

end Server

/-- Both servers: a reload that cannot open the file changes nothing and
returns `-1`; otherwise the fields whose lines were read, up to the first line
that is not, hold the file's values and the others keep theirs, and the result
is `0` exactly when every line was read, `-2` otherwise. -/
theorem readConfigFromFile_outcome :
    (∀ cfg, CacheServer.readConfigFromFile none cfg = (-1, cfg)) ∧
    (∀ f cfg, let vs := keyValues ["max_connections", "backlog", "port"] f
      CacheServer.readConfigFromFile (some f) cfg =
        (if vs.length = 3 then 0 else -2,
          ⟨vs.getD 0 cfg.max_connnections, vs.getD 1 cfg.backlog, vs.getD 2 cfg.port⟩)) ∧
    (∀ cfg, Server.readConfigFromFile none cfg = (-1, cfg)) ∧
    (∀ f cfg, let vs := keyValues ["max_connections", "backlog", "port", "filter_window_samples"] f
      Server.readConfigFromFile (some f) cfg =
        (if vs.length = 4 then 0 else -2,
          ⟨vs.getD 0 cfg.max_connnections, vs.getD 1 cfg.backlog, vs.getD 2 cfg.port,
            vs.getD 3 cfg.filter_window_samples⟩)) :=
  ⟨fun _ => rfl, CacheServer.readConfigFromFile_some, fun _ => rfl, Server.readConfigFromFile_some⟩

end HwDrivers
