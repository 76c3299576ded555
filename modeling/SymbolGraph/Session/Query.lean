import SymbolGraph.Node.Field
import SymbolGraph.Oracle.Basic
import SymbolGraph.Session.Caches

/-!
# Sessions and their queries

A session has settings that stay as they are, and answers queries. A query may ask the front end, create wrappers and fill cells,
and it may fail; what it did before it failed stays done.
-/

namespace SymbolGraph

variable {σ τ δ α β : Type}

/-! ## Settings -/

structure Config where
  /-- The module under analysis. -/
  moduleName : String := "main"
  /-- Whether the return type of a platform method is resolved against its class before it is
  read. -/
  interopReturnTypeWorkaround : Bool := true
  /-- How many workers a session has of its own; none means that it shares the common ones. -/
  parallelism : Option Nat := none
deriving DecidableEq

namespace Config

/-- A session with workers of its own has at least one. -/
def withParallelism (config : Config) (threads : Nat) : Config :=
  { config with parallelism := some (max threads 1) }

end Config

/-! ## Sessions -/

/-- What is fixed for the whole of a session. -/
structure Session (σ : Type) where
  oracle : Oracle σ
  config : Config := {}

/-- What changes in the course of a session, the state of the front end included. -/
structure SessionState (σ : Type) where
  oracle : σ
  caches : Caches := {}
  memo : Memo := {}

namespace SessionState

/-- The wrapper under a key. If there is none yet it is built, and told its handle. -/
def create (s : SessionState σ) (kind : Kind) (key : kind.Key) (build : Handle kind → kind.Wrapper) :
    kind.Wrapper × SessionState σ :=
  let (wrapper, cache) := (s.caches.get kind).getOrCreate key fun slot => build ⟨slot⟩
  (wrapper, { s with caches := s.caches.set kind cache })

/-- The value of a cell. An empty cell is filled; a full one stays as it is. -/
def fill (s : SessionState σ) (cell : Cell) (value : cell.Value) : cell.Value × SessionState σ :=
  match s.memo.get? cell with
  | some earlier => (earlier, s)
  | none => (value, { s with memo := s.memo.insert cell value })

end SessionState

/-- A computation in a session. Its state `τ` survives a failure. -/
abbrev Action (σ τ : Type) := ReaderT (Session σ) (EStateM GraphError τ)

/-- A computation on the state of the session. -/
abbrev Query (σ : Type) := Action σ (SessionState σ)

/-- A query that also keeps data of its own, such as what a visitor collects. -/
abbrev Visit (σ δ : Type) := Action σ (δ × SessionState σ)

namespace Action

theorem pure_apply (a : α) (session : Session σ) (s : τ) :
    (pure a : Action σ τ α) session s = .ok a s := rfl

theorem bind_apply (x : Action σ τ α) (f : α → Action σ τ β) (session : Session σ) (s : τ) :
    (x >>= f) session s = match x session s with
      | .ok a s' => f a session s'
      | .error e s' => .error e s' := by
  simp only [bind, ReaderT.bind, EStateM.bind]
  cases x session s <;> rfl

theorem throw_apply (e : GraphError) (session : Session σ) (s : τ) :
    (throw e : Action σ τ α) session s = .error e s := rfl

/-- The outcome of an action as a value, so that the computation goes on after a failure. -/
def attempt (x : Action σ τ α) : Action σ τ (Except GraphError α) := fun session s =>
  match x session s with
  | .ok a s' => .ok (.ok a) s'
  | .error e s' => .ok (.error e) s'

end Action

namespace Query

/-- Puts a question to the front end. -/
def ask (question : Oracle σ → StateM σ α) : Query σ α := fun session s =>
  let (answer, oracle) := question session.oracle s.oracle
  .ok answer { s with oracle }

/-- Puts a question to the front end that it may refuse. -/
def request (question : Oracle σ → Answer σ α) : Query σ α := do
  match ← ask question with
  | .ok answer => return answer
  | .error e => throw (.oracle e)

/-- The wrapper with this handle, if the handle was issued. -/
def find? {kind : Kind} (h : Handle kind) : Query σ (Option kind.Wrapper) := do
  return ((← get).caches.get kind).get h.index

/-- The wrapper with this handle. Handles that were not issued are stale. -/
def resolve {kind : Kind} (h : Handle kind) : Query σ kind.Wrapper := do
  match ← find? h with
  | some wrapper => return wrapper
  | none => throw (.staleHandle kind.name h.index)

/-- The wrapper with this key. It is looked up first; only if there is none yet does `make` run, to
find out what the wrapper is made of. -/
def wrap (kind : Kind) (key : kind.Key) (make : Query σ (Handle kind → kind.Wrapper)) :
    Query σ kind.Wrapper := do
  match ((← get).caches.get kind).lookup key with
  | some found => return found
  | none =>
    let build ← make
    modifyGet fun s => s.create kind key build

/-- The value of a cell. If the cell is empty, `compute` runs and its value is kept; if it fails,
the cell stays empty. A value, once kept, is never replaced. -/
def memoize (cell : Cell) (compute : Query σ cell.Value) : Query σ cell.Value := do
  match (← get).memo.get? cell with
  | some value => return value
  | none =>
    let value ← compute
    -- The computation may have come back to this cell and filled it itself.
    modifyGet fun s => s.fill cell value

end Query

namespace Visit

/-- A query leaves the data of a visit as they are. -/
def ofQuery (q : Query σ α) : Visit σ δ α := fun session s =>
  match q session s.2 with
  | .ok a s' => .ok a (s.1, s')
  | .error e s' => .error e (s.1, s')

/-- Changes the data of a visit. -/
def change (f : δ → δ) : Visit σ δ Unit := fun _ (data, s) => .ok () (f data, s)

/-- Runs a visit on data of its own. Whether it fails or not, its data are handed back. -/
def run (visit : Visit σ δ α) (data : δ) : Query σ (Except GraphError α × δ) := fun session s =>
  match visit session (data, s) with
  | .ok a (data', s') => .ok (.ok a, data') s'
  | .error e (data', s') => .ok (.error e, data') s'

end Visit

/-! ## The life of a session -/

namespace SessionState

/-- A session starts with nothing wrapped. -/
def start (oracle : σ) : SessionState σ := { oracle }

def stats (s : SessionState σ) : CacheStats := s.caches.stats

/-- Ends a session: every wrapper is dropped, the front end stays as it is. -/
def close (s : SessionState σ) : CacheStats × SessionState σ := (s.stats, start s.oracle)

end SessionState

end SymbolGraph
