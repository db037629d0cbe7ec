import Athena.CashOuts.Agreement

/-!
# Scripted interleavings

An interleaving can be written down scene by scene: a command of a user, or a turn that
makes some of its calls in surroundings that stay as they are.  What a script leads to can
be computed, and it is reachable (`reachable_script`).
-/

namespace Athena.CashOuts

open Athena.Lib Queries Store

/-- What surrounds the store while a turn runs: the clock, a fresh identifier, the other
tables, the connection of the Wallet, and the answers of the provider. -/
structure Surroundings where
  now : Time
  uuid : UUID := 0
  admission : Admission := ⟨[], [], []⟩
  connection : Except StoreError Snapshot := .error .unavailable
  client : Bool := true
  balances : Except WormError (List WalletBalance) := .error .other
  positions : Except WormError (Option PositionPage) := .error .other
  position : Except WormError (Option MarginPosition) := .error .other
  close : Option CloseResult × Option WormError := (none, some .other)

namespace Surroundings

def answer (env : Surroundings) (t : Tables) : (c : WorkerCall) → c.Reply × Tables
  | .now => (env.now, t)
  | .uuid => (env.uuid, t)
  | .alive => (true, t)
  | .store op now =>
    match exec env.admission op t now with
    | .ok (t', a) => (.ok a, t')
    | .error e => (.error e, t)
  | .cashOut owner id => (getPositionCashOut t owner id, t)
  | .attempt id => (.ok ((t.cashOut id).bind fun c => c.attempt), t)
  | .item ref => (found (t.item ref) .constraint, t)
  | .items owner batch page pageSize =>
    (listPositionCashOutBatchItems t owner batch page pageSize, t)
  | .connection _ _ => (env.connection, t)
  | .client _ _ => (env.client, t)
  | .reconnect _ _ _ => ((), t)
  | .balances _ _ => (env.balances, t)
  | .positions _ _ => (env.positions, t)
  | .position _ _ => (env.position, t)
  | .close _ _ _ => (env.close, t)

theorem lawful (env : Surroundings) (t : Tables) (c : WorkerCall) :
    serves t c (env.answer t c).1 (env.answer t c).2 := by
  cases c with
  | store op now =>
    rw [answer]
    cases h : exec env.admission op t now with
    | ok r => exact ⟨env.admission, h⟩
    | error e => exact .inl ⟨rfl, env.admission, h⟩
  | cashOut | attempt | item | items => exact ⟨rfl, .inl rfl⟩
  | _ => rfl

def oracle (env : Surroundings) : pool.Oracle := ⟨env.answer, env.lawful⟩

end Surroundings

/-- A part of an interleaving that is played in one go.  A turn makes at most `calls`
calls; it can be resumed in other surroundings. -/
inductive Scene
  | command (adm : Admission) (op : Operation) (now : Time)
  | create (i : ℕ) (owner command : UUID) (walletId : ℕ) (address pubkey : String)
      (env : Surroundings) (calls : ℕ)
  | cashOut (i : ℕ) (worker cashOut : UUID) (env : Surroundings) (calls : ℕ)
  | batch (i : ℕ) (worker batch : UUID) (env : Surroundings) (calls : ℕ)
  | resume (i : ℕ) (env : Surroundings) (calls : ℕ)

def World.play (w : World) : Scene → World
  | .command adm op now =>
    if op.isCommand then
      match exec adm op w.shared now with
      | .ok (t, _) => { w with shared := t, log := w.log ++ [⟨none, w.shared, t⟩] }
      | .error _ => w
    else w
  | .create i owner command walletId address pubkey env calls =>
    env.oracle.serves i calls
      (w.begin i (Worker.createTurn owner command walletId address pubkey))
  | .cashOut i worker cashOut env calls =>
    env.oracle.serves i calls (w.begin i (Worker.cashOutTurn i worker cashOut))
  | .batch i worker batch env calls =>
    env.oracle.serves i calls (w.begin i (Worker.batchTurn i worker batch))
  | .resume i env calls => env.oracle.serves i calls w

theorem World.Reachable.play {w : World} (hw : w.Reachable) (scene : Scene) :
    (w.play scene).Reachable := by
  cases scene with
  | command adm op now =>
    rw [World.play]
    split
    · rename_i hop
      split
      · rename_i t r h
        exact Relation.ReflTransGen.tail hw (.drift t ⟨adm, op, now, r, hop, h⟩)
      · exact hw
    · exact hw
  | create i owner command walletId address pubkey env calls =>
    exact env.oracle.reachable_serves i calls
      (Pool.Reachable.begin hw (.inr (.inr ⟨owner, command, walletId, address, pubkey, rfl⟩)))
  | cashOut i worker cashOut env calls =>
    exact env.oracle.reachable_serves i calls
      (Pool.Reachable.begin hw (.inl ⟨worker, cashOut, rfl⟩))
  | batch i worker batch env calls =>
    exact env.oracle.reachable_serves i calls
      (Pool.Reachable.begin hw (.inr (.inl ⟨worker, batch, rfl⟩)))
  | resume i env calls => exact env.oracle.reachable_serves i calls hw

def script (scenes : List Scene) : World := scenes.foldl World.play pool.initial

theorem reachable_script (scenes : List Scene) : (script scenes).Reachable := by
  suffices h : ∀ w : World, w.Reachable → (scenes.foldl World.play w).Reachable from h _ .refl
  intro w hw
  induction scenes generalizing w with
  | nil => exact hw
  | cons scene _ ih => exact ih _ (hw.play scene)

/-! ## A batch of one Wallet -/

namespace Sample

def position (pubkey : String) (created : ℤ) : ListedPosition where
  pubkey := pubkey
  positionRequestPubkey := none
  conditionId := "11111111111111111111111111111114"
  isYes := true
  created := some created
  totalShares := "2"
  isClosed := false
  isLiquidated := false
  title := "market"
  mapped := true

def first : ListedPosition := position "11111111111111111111111111111112" 2

def next : ListedPosition := position "11111111111111111111111111111113" 1

def admission : Admission := ⟨[(7, "wallet")], [⟨7, "wallet", true, some 3⟩], []⟩

def surroundings (now : ℕ) : Surroundings :=
  { now := now * second, admission, connection := .ok ⟨true, "wallet", some ⟨1, 3, true⟩⟩ }

/-- The provider shows a position as it is listed, the Wallet has a balance, and a Close is
answered with `isClosed`. -/
def showing (now : ℕ) (uuid : UUID) (p : ListedPosition) (amount : String) (isClosed : Bool) :
    Surroundings :=
  { surroundings now with
    uuid, position := .ok (some p.toMarginPosition)
    balances := .ok [⟨7, "wallet", true, 6, now, amount⟩]
    close := (some ⟨p.pubkey, "zero", isClosed⟩, none) }

/-- The owner creates a batch, and a worker builds it from what the provider lists. -/
def built (positions : List ListedPosition) : List Scene :=
  [.command admission (.createBatch ⟨1, 10, [⟨⟨"", "", "", ""⟩, 7, "wallet"⟩], 500 * second⟩ 100)
     (100 * second),
   .batch 0 1 100 { surroundings 101 with positions := .ok (some ⟨positions, 100, none⟩) } 20]

def authorized : Scene :=
  .command admission (.authorizeBatch ⟨1, 100, 11, 3, "WALLET", 0, 1, 50⟩) (102 * second)

/-- Turn `k` activates the next item, with the child `200 + k`. -/
def activated (k now : ℕ) (p : ListedPosition) : Scene :=
  .batch k 1 100 (showing now (200 + k) p "5" true) 20

/-- Turn `k + 1` closes the position of the child that turn `k` created. -/
def closed (k now : ℕ) (p : ListedPosition) : Scene :=
  .cashOut (k + 1) 1 (200 + k) (showing now (300 + k) p "5" true) 30

def credited (k now : ℕ) (p : ListedPosition) : List Scene :=
  [activated k now p, closed k (now + 2) p,
   .batch (k + 2) 1 100 (showing (now + 4) 0 p "5" true) 20,
   .batch (k + 3) 1 100 (showing (now + 8) 0 p "9" true) 20]

def tour : List Scene :=
  built [first, next] ++ authorized :: credited 1 110 first ++ [activated 5 120 next]

end Sample

end Athena.CashOuts
