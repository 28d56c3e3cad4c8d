import StepTrace.Recording.Ledger

/-!
A recorder offers the steps of a ledger to a sink. A step that the sink refuses is dropped and counted;
the ledger does not learn of it.
-/
namespace StepTrace.Recording

/-- Takes steps one at a time and says whether each was kept. -/
abbrev Sink (σ : Type) := σ → Offer → σ × Bool

/-- Keeps the steps that it takes in a list. It refuses the calls of the given numbers, counted from
one. -/
def Sink.list (refused : List Nat) : Sink (Nat × List Offer) := fun (calls, taken) offer =>
  let n := calls + 1
  if n ∈ refused then ((n, taken), false) else ((n, taken ++ [offer]), true)

structure Recorder (σ : Type) where
  options : Options
  ledger : Ledger := {}
  written : Nat := 0
  dropped : Nat := 0
  sink : σ

namespace Recorder

variable {σ : Type}

/-- Offers a step to the sink. -/
def offer (accept : Sink σ) (r : Recorder σ) (o : Offer) : Recorder σ :=
  let (sink, kept) := accept r.sink o
  if kept then { r with sink, written := r.written + 1 }
  else { r with sink, dropped := r.dropped + 1 }

/-- Carries out an operation of a stream. -/
def apply (accept : Sink σ) (now : UInt64) (r : Recorder σ) (id : String) (op : Operation) :
    Recorder σ :=
  let (ledger, offered) := r.ledger.apply r.options now id op
  let r := { r with ledger }
  match offered with
  | none => r
  | some o => r.offer accept o

def streamCount (r : Recorder σ) : Nat := r.ledger.streams.length

end Recorder
end StepTrace.Recording
