import CrateTrace.Store.Basic

/-!
# Transactions

A connection to a store may have one transaction open. What is done in it can be taken back.
-/

namespace CrateTrace.Store

structure Connection where
  store : Store
  /-- What a rollback brings back, while a transaction is open. -/
  saved : Option Store
deriving DecidableEq

namespace Connection

def start : Connection := ⟨.empty, none⟩

def begin (c : Connection) : Except StoreError Connection :=
  match c.saved with
  | none => .ok { c with saved := some c.store }
  | some _ => .error .nestedTransaction

def commit (c : Connection) : Connection := { c with saved := none }

def rollback (c : Connection) : Connection := ⟨c.saved.getD c.store, none⟩

def addRun (c : Connection) (run : Run) : Connection := { c with store := c.store.addRun run }

/-- Does something that needs a transaction of its own. -/
def isolated {α : Type} (c : Connection) (act : Store → α × Store) :
    Except StoreError (α × Connection) :=
  match c.begin with
  | .error e => .error e
  | .ok c =>
    let (result, store) := act c.store
    .ok (result, { c with store }.commit)

end Connection

end CrateTrace.Store
