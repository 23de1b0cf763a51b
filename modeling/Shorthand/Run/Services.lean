import Shorthand.Log.Event
import Shorthand.Store.Basic

/-!
# What a run needs from outside

A run reads and writes files, asks for the time, and tells what it does. Over a store that is a
value all of this is a function of the store.
-/

namespace Shorthand

/-- Actions by which a run meets the world. -/
structure Services (m : Type → Type) where
  read : String → m (Except IoFault (List UInt8))
  write : String → List UInt8 → m (Except IoFault Unit)
  /-- The time, as reports show it. -/
  now : m String
  record : Event → m Unit

namespace Services

/-- Reading and writing a store, at a fixed time and telling nobody. -/
def ofStore {σ : Type} (store : Store σ) (time : String) : Services (StateM σ) where
  read path := do return store.read (← get) path
  write path data := modifyGet fun s => store.write s path data
  now := return time
  record _ := return ()

end Services

/-- A run that may fail. -/
abbrev Run (m : Type → Type) := ExceptT Fault m

namespace Run

variable {m : Type → Type} [Monad m]

def ofIo {α : Type} (action : m (Except IoFault α)) : Run m α :=
  ExceptT.mk do return (← action).mapError Fault.io

def tell (services : Services m) (event : Event) : Run m Unit :=
  ExceptT.lift (services.record event)

end Run

end Shorthand
