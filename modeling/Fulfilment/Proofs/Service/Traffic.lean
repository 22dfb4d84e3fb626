import Fulfilment.Proofs.Protocol
import Fulfilment.Proofs.Service.Command

/-!
# Commands at the same time

The system in which any number of commands run at the same time on one world, while the clock moves,
the ledger and the catalog change in any way, and saving, publishing, recording and claiming are
made to fail or to work again. Only commands change the stored orders and the keys. What the
commands have saved can be read off what they have said: the saves that were answered with a
version, in their order, are the history of the order book.
-/
namespace Fulfilment
namespace Service

/-- What may happen in a world besides the calls of commands. The clock may go back. -/
inductive Change where
  | setClock (now : Instant)
  | setLedger (ledger : Ledger)
  | setCatalog (catalog : Catalog)
  | failSaves (failing : Bool)
  | failPublishing (failing : Bool)
  | failRecording (failing : Bool)
  | failClaims (failing : Bool)

def Change.apply : Change → World → World
  | setClock now, w => { w with clock := now }
  | setLedger ledger, w => { w with ledger }
  | setCatalog catalog, w => { w with catalog }
  | failSaves failing, w => { w with book := { w.book with failing } }
  | failPublishing failing, w => { w with outbox := { w.outbox with failing } }
  | failRecording failing, w => { w with trail := { w.trail with failing } }
  | failClaims failing, w => { w with keys := { w.keys with failing } }

/-- The system of commands, where a desk settles and releases holds. -/
def system (desk : HoldDesk) : System Shop.calls World Command Change Answer :=
  ⟨World.answer, Command.script desk, Change.apply⟩

/-- The commands that were started in a world. -/
abbrev Traffic := Pool Shop.calls World Command Answer

/-- The traffic after one of the commands has made a call and goes on with the rest of its
script. -/
abbrev Traffic.afterCall (desk : HoldDesk) (w : World)
    (before : List (Task Shop.calls Command Answer)) (t : Task Shop.calls Command Answer)
    (after : List (Task Shop.calls Command Answer)) (trace : List (Exchange Shop.calls))
    (request : Shop.Call) (rest : Script Shop.calls Answer) : Traffic where
  stores := (World.answer request w).2
  tasks := before ++ t.tell ((system desk).exchange request w) rest :: after
  trace := trace ++ [(system desk).exchange request w]

/-! ## Saves and loads -/

/-- The order that an exchange stores, as it is stored. -/
def stored? : Exchange Shop.calls → Option Order
  | ⟨.save o, .ok version⟩ => some { o with version }
  | _ => none

/-- The orders that some exchanges store, one after the other. -/
def commits (log : List (Exchange Shop.calls)) : List Order := log.filterMap stored?

@[simp] theorem commits_nil : commits [] = [] := rfl

@[simp] theorem commits_append (log es : List (Exchange Shop.calls)) :
    commits (log ++ es) = commits log ++ commits es := List.filterMap_append

/-- The values that an order was stored under, one after the other. -/
def history (trace : List (Exchange Shop.calls)) (id : OrderId) : List Order :=
  (commits trace).filter fun o => o.id = id

theorem id_of_mem_history {trace : List (Exchange Shop.calls)} {id : OrderId} {o : Order}
    (h : o ∈ history trace id) : o.id = id :=
  of_decide_eq_true (List.mem_filter.1 h).2

theorem history_append (trace : List (Exchange Shop.calls)) (e : Exchange Shop.calls)
    (id : OrderId) :
    history (trace ++ [e]) id =
      history trace id ++ (stored? e).toList.filter fun o => o.id = id := by
  have hsaved : commits [e] = (stored? e).toList := by cases h : stored? e <;> simp [commits, h]
  simp [history, hsaved]

/-- The order was loaded by its id. -/
def Loaded (log : List (Exchange Shop.calls)) (id : OrderId) (o : Order) : Prop :=
  ⟨.load id, .ok (some o)⟩ ∈ log

/-! ## Calls -/

/-- The call does not change orders or keys. -/
def Plain : Shop.Call → Prop
  | .save _ | .claim _ | .complete .. | .release _ => False
  | _ => True

theorem stored?_of_plain {request : Shop.Call} (h : Plain request)
    (reply : Shop.calls.Reply request) : stored? ⟨request, reply⟩ = none := by
  cases request with
  | save => exact h.elim
  | _ => rfl

/-- The call is one on the ledger, or it tells of something. -/
def Trails : Shop.Call → Prop
  | .stock _ | .record _ | .publish _ => True
  | _ => False

theorem Trails.plain {request : Shop.Call} (h : Trails request) : Plain request := by
  cases request with
  | stock | record | publish => trivial
  | _ => exact h.elim

/-- The call is one on the ledger. -/
def OnLedger : Shop.Call → Prop
  | .stock _ => True
  | _ => False

theorem OnLedger.trails {request : Shop.Call} (h : OnLedger request) : Trails request := by
  cases request with
  | stock => trivial
  | _ => exact h.elim

/-- A script on the ledger makes only calls on the ledger. -/
theorem only_onLedger_onStock {α : Type} (p : Script Stock.calls α) :
    (Shop.onStock p).Only OnLedger := by
  induction p with
  | done a => trivial
  | call request next ih => exact ⟨trivial, ih⟩

theorem only_trails_onStock {α : Type} (p : Script Stock.calls α) :
    (Shop.onStock p).Only Trails :=
  (only_onLedger_onStock p).mono OnLedger.trails

theorem only_plain_onStock {α : Type} (p : Script Stock.calls α) : (Shop.onStock p).Only Plain :=
  (only_trails_onStock p).mono Trails.plain

end Service
end Fulfilment
