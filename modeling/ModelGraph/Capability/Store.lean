import ModelGraph.Entity
import ModelGraph.Keyed
import ModelGraph.Text.Quoted

/-! # Capability store

A union announces itself to its members before or after they are declared. The store keeps, for
every name, the capabilities announced to it and how many of them were already delivered, so that
delivering twice hands out each only once. -/

namespace ModelGraph

/-- The capabilities announced to one name, and how many of them were delivered. -/
structure Ledger where
  announced : List Capability := []
  delivered : Nat := 0
  deriving DecidableEq, Repr

/-- The capabilities announced and not yet delivered. -/
def Ledger.pending (ledger : Ledger) : List Capability :=
  ledger.announced.drop ledger.delivered

/-- The ledgers of all names that something was announced to. -/
structure CapabilityStore where
  ledgers : Keyed Ledger := []
  deriving DecidableEq, Repr

namespace CapabilityStore

/-- Announce a capability to a name. -/
def announce (store : CapabilityStore) (name : String) (capability : Capability) :
    CapabilityStore where
  ledgers := store.ledgers.alter name fun ledger? =>
    let ledger := ledger?.getD {}
    { ledger with announced := ledger.announced ++ [capability] }

/-- All capabilities ever announced to a name, in order. -/
def announced (store : CapabilityStore) (name : String) : List Capability :=
  ((store.ledgers.get? name).map Ledger.announced).getD []

/-- Deliver what is pending for a name. A name that nothing was announced to stays unknown. -/
def deliver (store : CapabilityStore) (name : String) : List Capability × CapabilityStore :=
  match store.ledgers.get? name with
  | none => ([], store)
  | some ledger =>
      (ledger.pending,
        ⟨store.ledgers.alter name fun _ =>
          { ledger with delivered := ledger.announced.length }⟩)

/-- The names with something pending, as they come. -/
def undelivered (store : CapabilityStore) : List String :=
  Keyed.names (store.ledgers.filter fun (_, ledger) => ledger.delivered < ledger.announced.length)

/-- The names with something pending, in order. -/
def pendingNames (store : CapabilityStore) : List String :=
  store.undelivered.mergeSort fun name other => !decide (other < name)

/-- Nothing was ever announced. -/
def isEmpty (store : CapabilityStore) : Bool :=
  store.ledgers.isEmpty

/-- The numbers of announced and delivered capabilities under each name, as text. -/
def summary (store : CapabilityStore) : String :=
  let entry := fun ((name, ledger) : String × Ledger) =>
    Text.quoted name ++ ": (" ++ toString ledger.announced.length ++ ", " ++
      toString ledger.delivered ++ ")"
  "\x7b" ++ ", ".intercalate (store.ledgers.map entry) ++ "\x7d"

end CapabilityStore

end ModelGraph
