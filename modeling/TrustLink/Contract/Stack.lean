import TrustLink.Contract.Custody
import TrustLink.Effects.Layer

/-!
# TrustLink — the backend on top of the contract service

To the services of the backend a call of `ContractService` is one step with some answer. In the
process it is dozens of awaited calls: fetch the account, simulate, prepare, send, poll every
quarter of a second; and at each of them other requests run. Here the two levels are put together.
`contractLayer` names the program of `ContractService` behind each call, `stacked` interleaves the
operations call by call at *both* levels, against a server about which nothing is assumed.

**`stack_refines`** says that nothing is lost by the coarser view: every run of the stacked backend
has a run of the backend alone that ends in the same world, with the same threads, outcomes and
histories up to the traffic with the server.

The polling loop is observed for `fuel` rounds. A round takes a quarter of a second and the loop
gives up after thirty seconds, so a process that still polls after more rounds is one whose clock
stands still; here it is one whose call fails.
-/

namespace TrustLink

open Effects

/-- The programs of the contract service behind the calls of the backend. -/
def contractLayer (C : ContractConfig) (fuel : Nat) : Layer backend soroban where
  body
    | .ext (.getEscrowState k) => some (ContractService.getEscrowState C k)
    | .ext (.cancelEscrowOnChain k callerAddress) =>
      some (ContractService.cancelEscrowOnChain C fuel k callerAddress)
    | .ext (.resolveDispute k resolution adminAddress) =>
      some (ContractService.resolveDispute C fuel k resolution adminAddress)
    | .ext (.recordDelivery k callerAddress) =>
      some (ContractService.recordDelivery C fuel k callerAddress)
    | .ext (.submitAutoRelease k sourceAddress) =>
      some (ContractService.submitAutoRelease C fuel k sourceAddress)
    | _ => none
  report := ContractError.toErr

section layer

variable {C : ContractConfig} {fuel : Nat}

/-- Only calls of the outside world are implemented. -/
theorem contractLayer_body {c : Call} {b : Rpc c.Resp}
    (h : (contractLayer C fuel).body c = some b) : ∃ x, c = .ext x := by
  cases c with
  | ext x => exact ⟨x, rfl⟩
  | _ => cases h

/-- The world may answer a contract call in any way, and is not changed by it. -/
theorem contractLayer_admits : (contractLayer C fuel).Admits world := by
  intro c b log r w hbody _
  obtain ⟨x, rfl⟩ := contractLayer_body hbody
  let answer := r.mapError ContractError.toErr
  refine ⟨{ Choice.calm with reply := Function.update Choice.calm.reply x answer }, ?_⟩
  show (Function.update Choice.calm.reply x answer x, w) = (answer, w)
  rw [Function.update_self]

end layer

/-- The operations of the backend, with the contract service in the place of its calls. -/
def Op.stackedProg (D : Deployment) (C : ContractConfig) (fuel : Nat) (op : Op) :
    Prog (backend.over soroban) Unit :=
  (contractLayer C fuel).expand (op.prog D)

/-- A run interleaved at the calls of both levels. -/
abbrev stacked (D : Deployment) (C : ContractConfig) (fuel : Nat) {N : Machine soroban} (w : World)
    (n : N.State) (ms : List (Move (world.beside N) Op)) : Pool (world.beside N) Op :=
  Pool.run (Op.stackedProg D C fuel) ⟨(w, n), []⟩ ms

/-- Whatever the server is, every run of the stacked backend is a run of the backend alone in which
each contract call is one step: the world is the same, and thread by thread so are the label, the
outcome and, but for the traffic with the server, the history. -/
theorem stack_refines (D : Deployment) (C : ContractConfig) (fuel : Nat) {N : Machine soroban}
    (w : World) (n : N.State) (ms : List (Move (world.beside N) Op)) :
    ∃ ms' : List (Move world Op),
      (contractLayer C fuel).Related (stacked D C fuel w n ms) (interleave D w ms') :=
  (contractLayer C fuel).run_refines (Op.prog D) contractLayer_admits w n ms

end TrustLink
