import Blueprint.Expr.Grammar
import Blueprint.Ledger.Basic
import Blueprint.Parser.Block

/-!
# Grammar of ledgers
-/

namespace Blueprint.Parser

/-! ## Ledgers -/

/-- `entity "." field`. -/
def syncTarget : Parser SyncTarget := do
  let target ← name
  let _ ← expect .dot
  return ⟨target, ← name⟩

/-- The directives of a ledger as far as they have been read. -/
structure LedgerDraft where
  accountCode : Option Nat := none
  ledgerId : Option Nat := none
  accountType : Option AccountType := none
  currency : Option String := none
  flags : List String := []
  syncTo : Option SyncTarget := none
  tenantScoped : Bool := false

def ledgerStatement (d : LedgerDraft) : Parser LedgerDraft := do
  match ← keyword? with
  | some .accountCode => return { d with accountCode := some (← keyed count) }
  | some .ledgerId => return { d with ledgerId := some (← keyed count) }
  | some .accountType =>
    let accountType ← keyed (choiceOf "account type" AccountType.all AccountType.spelling)
    return { d with accountType := some accountType }
  | some .currency => return { d with currency := some (← keyed stringOrName) }
  | some .flags => return { d with flags := ← keyed names }
  | some .syncTo => return { d with syncTo := some (← keyed syncTarget) }
  | some .tenantScoped => return { d with tenantScoped := ← keyed truth }
  | _ => passOver d

def ledger : Parser Ledger := do
  let location ← here
  let _ ← expectKeyword .ledger
  let (n, title) ← header
  let d ← block ledgerStatement {}
  let accountCode ← required "ledger" n "account_code" location d.accountCode
  let ledgerId ← required "ledger" n "ledger_id" location d.ledgerId
  let accountType ← required "ledger" n "account_type" location d.accountType
  let currency ← required "ledger" n "currency" location d.currency
  return {
    location, name := n, title, accountCode, ledgerId, accountType, currency, flags := d.flags,
    syncTo := d.syncTo, tenantScoped := d.tenantScoped }

/-! ## Transfers -/

/-- The directives of a transfer as far as they have been read. -/
structure TransferDraft where
  debit : Option String := none
  credit : Option String := none
  amount : Option Computed := none
  code : Option Nat := none
  flags : List String := []

def transferStatement (d : TransferDraft) : Parser TransferDraft := do
  match ← keyword? with
  | some .debit => return { d with debit := some (← keyed name) }
  | some .credit => return { d with credit := some (← keyed name) }
  | some .amount => return { d with amount := some (← keyed computed) }
  | some .code => return { d with code := some (← keyed count) }
  | some .flags => return { d with flags := ← keyed names }
  | _ => passOver d

/-- A transfer, between two different ledgers. -/
def transfer : Parser Transfer := do
  let location ← here
  let n ← name
  let d ← block transferStatement {}
  let debit ← required "transfer" n "debit" location d.debit
  let credit ← required "transfer" n "credit" location d.credit
  let amount ← required "transfer" n "amount" location d.amount
  if debit == credit then failIn location (.sameLedger n debit)
  else return { name := n, debit, credit, amount, code := d.code, flags := d.flags }

/-- One more transfer, which no other transfer may have the name of. -/
def anotherTransfer (transfers : List Transfer) : Parser (List Transfer) := do
  let t ← current
  let r ← transfer
  if transfers.any (·.name == r.name) then failAt t (.duplicate "transfer" r.name)
  else return transfers ++ [r]

/-! ## Transactions -/

/-- `"-" invariant`. -/
def validationLine : Parser Invariant := do
  let _ ← expect .minus
  closing invariant

def transactionStatement (t : Transaction) : Parser Transaction := do
  match ← keyword? with
  | some .execution =>
    let execution ← keyed (choiceOf "execution mode" ExecutionMode.all ExecutionMode.spelling)
    return { t with execution }
  | some .priority =>
    let priority ← keyed (choiceOf "priority" TransactionPriority.all TransactionPriority.spelling)
    return { t with priority }
  | some .timeout => return { t with timeout := some (← keyed duration) }
  | some .transfer =>
    let _ ← advance
    return { t with transfers := ← anotherTransfer t.transfers }
  | some .idempotencyKey => return { t with idempotencyKey := some (← keyed fieldPath) }
  | some .validation =>
    let _ ← advance
    return { t with
      validation := ← block (fun l => do return l ++ [← validationLine]) t.validation }
  | _ => passOver t

/-- A transaction, with at least one transfer. -/
def transaction : Parser Transaction := do
  let location ← here
  let _ ← expectKeyword .transaction
  let (n, title) ← header
  let t ← block transactionStatement { location, name := n, title }
  if t.transfers.isEmpty then failIn location (.missing "transaction" n "transfer") else return t

end Blueprint.Parser
