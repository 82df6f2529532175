import Reconcile.Error
import Reconcile.Fields
import Reconcile.Text.Quoted

/-!
# Providers of clients

A provider hands out a client for each region that is enabled. What a client is, is left open; who
asks for a client of a certain type gets an error where the client of the region is of another one.

The first region that is enabled is the default one unless another one is named; a default region
need not be enabled.
-/

namespace Reconcile

/-- The clients of a provider, by region. -/
structure RegionalClients (γ : Type) where
  name : String
  clients : Fields γ
  defaultRegion : Option String
deriving Repr

/-- A source of clients. -/
inductive Provider (γ : Type) where
  /-- There is nothing to be had. -/
  | absent
  | regional (clients : RegionalClients γ)
deriving Repr

/-- A type of clients, as a view on clients of any type. -/
structure ClientType (γ δ : Type) where
  /-- The name of the type in messages. -/
  name : String
  /-- The client as one of the type, if it is one. -/
  cast? : γ → Option δ

variable {γ δ : Type}

namespace RegionalClients

/-- A provider without regions. -/
def named (name : String) : RegionalClients γ := ⟨name, [], none⟩

/-- Enables a region, with the client for it. -/
def enable (p : RegionalClients γ) (region : String) (client : γ) : RegionalClients γ :=
  { p with
    clients := p.clients.put region client
    defaultRegion := p.defaultRegion.orElse fun () => some region }

/-- Names the default region. -/
def withDefault (p : RegionalClients γ) (region : String) : RegionalClients γ :=
  { p with defaultRegion := some region }

end RegionalClients

namespace Provider

/-- The name of a provider. -/
def name : Provider γ → String
  | absent => "none"
  | regional p => p.name

/-- The client for a region. -/
def client (p : Provider γ) (region : String) : Except ProviderError γ :=
  match p with
  | absent => .error (.noProviderFor region)
  | regional r =>
    match r.clients.find? region with
    | some client => .ok client
    | none => .error (.regionNotEnabled r.name region)

/-- The client for a region, as one of a type. -/
def clientOf (p : Provider γ) (type : ClientType γ δ) (region : String) :
    Except ProviderError δ :=
  (p.client region).bind fun client =>
    match type.cast? client with
    | some client => .ok client
    | none => .error (.wrongClient p.name region type.name)

/-- The regions that are enabled, in the order of their names. -/
def enabledRegions : Provider γ → List String
  | absent => []
  | regional p => p.clients.names

/-- The default region. -/
def defaultRegion : Provider γ → Except ProviderError String
  | absent => .error .noProvider
  | regional p =>
    match p.defaultRegion with
    | some region => .ok region
    | none => .error (.noDefaultRegion p.name)

/-- The shown form of a run with this provider that has memoized nothing. -/
def shownRun (p : Provider γ) : String :=
  Text.shownFields "Context" [("memo", "\x7b\x7d"), ("provider", Text.quoted p.name)] true

end Provider

end Reconcile
