import Blueprint.Expr.Basic
import Blueprint.Location

/-!
# Ledgers

A ledger is an account of double-entry bookkeeping. A transaction moves amounts between two of them
at a time.
-/

namespace Blueprint

inductive AccountType where
  | asset | liability | equity | revenue | expense
  deriving DecidableEq

namespace AccountType

def all : List AccountType := [asset, liability, equity, revenue, expense]

def spelling : AccountType → String
  | asset => "asset"
  | liability => "liability"
  | equity => "equity"
  | revenue => "revenue"
  | expense => "expense"

end AccountType

/-- A field that shows the balance of a ledger. -/
structure SyncTarget where
  entity : String
  field : String
  deriving DecidableEq

structure Ledger where
  location : Location
  name : String
  title : Option String := none
  accountCode : Nat
  ledgerId : Nat
  accountType : AccountType
  currency : String
  flags : List String := []
  syncTo : Option SyncTarget := none
  tenantScoped : Bool := false
  deriving DecidableEq

inductive ExecutionMode where
  | sync | async
  deriving DecidableEq

namespace ExecutionMode

def all : List ExecutionMode := [sync, async]

def spelling : ExecutionMode → String
  | sync => "sync"
  | async => "async"

end ExecutionMode

inductive TransactionPriority where
  | critical | high | normal | low
  deriving DecidableEq

namespace TransactionPriority

def all : List TransactionPriority := [critical, high, normal, low]

def spelling : TransactionPriority → String
  | critical => "critical"
  | high => "high"
  | normal => "normal"
  | low => "low"

end TransactionPriority

/-- An amount that one ledger gives and another takes. -/
structure Transfer where
  name : String
  debit : String
  credit : String
  amount : Computed
  code : Option Nat := none
  flags : List String := []
  deriving DecidableEq

structure Transaction where
  location : Location
  name : String
  title : Option String := none
  execution : ExecutionMode := .sync
  priority : TransactionPriority := .normal
  timeout : Option Duration := none
  transfers : List Transfer := []
  idempotencyKey : Option FieldPath := none
  validation : List Invariant := []
  deriving DecidableEq

/-- The ledgers of the transfers, the debited one of each before the credited one. -/
def Transaction.ledgers (t : Transaction) : List String :=
  t.transfers.flatMap fun r => [r.debit, r.credit]

end Blueprint
