import Blueprint.Entity.Encode
import Blueprint.Ledger.Basic

/-!
# JSON form of ledgers
-/

namespace Blueprint

open Json (field optional several)

instance : Encode AccountType := ⟨fun t => .str t.spelling⟩

instance : Encode SyncTarget where
  encode t := .obj (field "entity" t.entity ++ field "field" t.field)

instance : Encode Ledger where
  encode l := .obj <|
    field "loc" l.location ++ field "name" l.name ++ optional "title" l.title ++
      field "account_code" l.accountCode ++ field "ledger_id" l.ledgerId ++
      field "account_type" l.accountType ++ field "currency" l.currency ++
      several "flags" l.flags ++ optional "sync_to" l.syncTo ++
      field "tenant_scoped" l.tenantScoped

instance : Encode ExecutionMode := ⟨fun m => .str m.spelling⟩
instance : Encode TransactionPriority := ⟨fun p => .str p.spelling⟩

instance : Encode Transfer where
  encode t := .obj <|
    field "name" t.name ++ field "debit_ledger" t.debit ++ field "credit_ledger" t.credit ++
      field "amount" t.amount ++ optional "code" t.code ++ several "flags" t.flags

instance : Encode Transaction where
  encode t := .obj <|
    field "loc" t.location ++ field "name" t.name ++ optional "title" t.title ++
      field "execution" t.execution ++ field "priority" t.priority ++
      optional "timeout" t.timeout ++ field "transfers" t.transfers ++
      optional "idempotency_key" t.idempotencyKey ++ several "validation" t.validation

end Blueprint
