import YangBinding.Diagnostic

namespace YangBinding

-- What happens during a compilation that may call for a diagnostic: a statement claims the name
-- of its class, or something is reported.
inductive Event where
  | claim (node : Nat) (name path : String)
  | report (report : Report)
deriving Repr, DecidableEq

-- The class names claimed so far, and the reports.
structure Ledger where
  claimed : List String
  reports : Reports
deriving Repr, DecidableEq

namespace Ledger

def empty : Ledger := ⟨[], []⟩

-- The first claim of a name stands, each further one is reported.
def record (ledger : Ledger) : Event → Ledger
  | .claim node name path =>
    if ledger.claimed.contains name then
      { ledger with reports := ledger.reports.add ⟨node, ⟨path, .duplicateClassName name⟩⟩ }
    else { ledger with claimed := ledger.claimed ++ [name] }
  | .report report => { ledger with reports := ledger.reports.add report }

end Ledger

-- The diagnostics that a run of events leads to.
def diagnosticsOf (events : List Event) : List Diagnostic :=
  (events.foldl Ledger.record .empty).reports.diagnostics

end YangBinding
