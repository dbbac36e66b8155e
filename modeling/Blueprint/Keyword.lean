/-!
# Keywords

The words with a meaning of their own. Reserved words can never name anything; all others are
contextual and may also stand as the name of a field, an enum value or a declaration.
-/

namespace Blueprint

/-- A word of the language. The first group is reserved, the second contextual. -/
inductive Keyword where
  | module | use | app | entity | archetype | surface | workspace | experience | foreignModel
  | integration | persona | scenario | llmModel | llmConfig | llmIntent | ledger | process
  | schedule | stream | policies | tenancy | interfaces | dataProducts | approval | sla
  | webhook | andOp | orOp | notOp | trueLit | falseLit | nullLit
  | enum | service | test | flow | story | transaction | view | as | description | multiTenant
  | auditTrail | securityProfile | extends | computed | invariant | message | code | unique
  | index | transitions | access | permit | forbid | softDelete | intent | domain | patterns
  | displayField | requires | role | auto | after | manual | guard | read | write | create
  | update | delete | list | str | text | int | float | decimal | bool | date | datetime
  | time | uuid | email | url | phone | json | money | file | image | timezone | ref | hasMany
  | hasOne | belongsTo | embeds | via | cascade | restrict | nullify | readonly | required
  | optional | pk | autoAdd | autoUpdate | sensitive | in | is | today | now | count | sum
  | avg | min | max | daysUntil | daysSince | uses | mode | section | field | action | on | ux
  | purpose | sort | filter | search | empty | attention | when | for | scope | hide | show
  | showAggregate | actionPrimary | readOnly | priority | requireAuth | allowPersonas
  | denyPersonas | stage | source | limit | display | groupBy | aggregate | start | at | step
  | kind | spec | authProfile | owner | input | output | guarantees | stub | from | key
  | constraint | call | operation | mapping | response | sync | into | match | rules | setup
  | data | expect | with | tags | preconditions | steps | goals | proficiency
  | defaultWorkspace | defaultRoute | seedScript | startRoute | actor | trigger | given | then
  | unless | status | provider | modelId | tier | maxTokens | costPer1kInput | costPer1kOutput
  | defaultModel | artifactStore | logging | rateLimits | model | prompt | outputSchema
  | timeout | retry | maxAttempts | backoff | initialDelay | pii | accountCode | ledgerId
  | accountType | currency | flags | syncTo | tenantScoped | execution | transfer | debit
  | credit | amount | idempotencyKey | validation | implements | parallel | compensations
  | overlap | waitFor | humanTask | condition | onSuccess | onFailure | onTimeout
  | assigneeRole | outcomes | subprocess | cron | interval | catchUp | partitionKey
  | orderingScope | retention | schema | derivesFrom | classify | erasure | defaultRetention
  | auditAccess | isolation | provisioning | api | expose | style | version | auth | rateLimit
  | dataProduct | refresh | classificationFilter | approverRole | quorum | escalationRole
  | startsWhen | pausesWhen | completesWhen | tiers | businessHours | onBreach | notify | set
  | events | payload | include | format | fields
  deriving DecidableEq

/-- The spelling of the word in a source text. -/
def Keyword.spelling : Keyword → String
  | .module => "module"
  | .use => "use"
  | .app => "app"
  | .entity => "entity"
  | .archetype => "archetype"
  | .surface => "surface"
  | .workspace => "workspace"
  | .experience => "experience"
  | .foreignModel => "foreign_model"
  | .integration => "integration"
  | .persona => "persona"
  | .scenario => "scenario"
  | .llmModel => "llm_model"
  | .llmConfig => "llm_config"
  | .llmIntent => "llm_intent"
  | .ledger => "ledger"
  | .process => "process"
  | .schedule => "schedule"
  | .stream => "stream"
  | .policies => "policies"
  | .tenancy => "tenancy"
  | .interfaces => "interfaces"
  | .dataProducts => "data_products"
  | .approval => "approval"
  | .sla => "sla"
  | .webhook => "webhook"
  | .andOp => "and"
  | .orOp => "or"
  | .notOp => "not"
  | .trueLit => "true"
  | .falseLit => "false"
  | .nullLit => "null"
  | .enum => "enum"
  | .service => "service"
  | .test => "test"
  | .flow => "flow"
  | .story => "story"
  | .transaction => "transaction"
  | .view => "view"
  | .as => "as"
  | .description => "description"
  | .multiTenant => "multi_tenant"
  | .auditTrail => "audit_trail"
  | .securityProfile => "security_profile"
  | .extends => "extends"
  | .computed => "computed"
  | .invariant => "invariant"
  | .message => "message"
  | .code => "code"
  | .unique => "unique"
  | .index => "index"
  | .transitions => "transitions"
  | .access => "access"
  | .permit => "permit"
  | .forbid => "forbid"
  | .softDelete => "soft_delete"
  | .intent => "intent"
  | .domain => "domain"
  | .patterns => "patterns"
  | .displayField => "display_field"
  | .requires => "requires"
  | .role => "role"
  | .auto => "auto"
  | .after => "after"
  | .manual => "manual"
  | .guard => "guard"
  | .read => "read"
  | .write => "write"
  | .create => "create"
  | .update => "update"
  | .delete => "delete"
  | .list => "list"
  | .str => "str"
  | .text => "text"
  | .int => "int"
  | .float => "float"
  | .decimal => "decimal"
  | .bool => "bool"
  | .date => "date"
  | .datetime => "datetime"
  | .time => "time"
  | .uuid => "uuid"
  | .email => "email"
  | .url => "url"
  | .phone => "phone"
  | .json => "json"
  | .money => "money"
  | .file => "file"
  | .image => "image"
  | .timezone => "timezone"
  | .ref => "ref"
  | .hasMany => "has_many"
  | .hasOne => "has_one"
  | .belongsTo => "belongs_to"
  | .embeds => "embeds"
  | .via => "via"
  | .cascade => "cascade"
  | .restrict => "restrict"
  | .nullify => "nullify"
  | .readonly => "readonly"
  | .required => "required"
  | .optional => "optional"
  | .pk => "pk"
  | .autoAdd => "auto_add"
  | .autoUpdate => "auto_update"
  | .sensitive => "sensitive"
  | .in => "in"
  | .is => "is"
  | .today => "today"
  | .now => "now"
  | .count => "count"
  | .sum => "sum"
  | .avg => "avg"
  | .min => "min"
  | .max => "max"
  | .daysUntil => "days_until"
  | .daysSince => "days_since"
  | .uses => "uses"
  | .mode => "mode"
  | .section => "section"
  | .field => "field"
  | .action => "action"
  | .on => "on"
  | .ux => "ux"
  | .purpose => "purpose"
  | .sort => "sort"
  | .filter => "filter"
  | .search => "search"
  | .empty => "empty"
  | .attention => "attention"
  | .when => "when"
  | .for => "for"
  | .scope => "scope"
  | .hide => "hide"
  | .show => "show"
  | .showAggregate => "show_aggregate"
  | .actionPrimary => "action_primary"
  | .readOnly => "read_only"
  | .priority => "priority"
  | .requireAuth => "require_auth"
  | .allowPersonas => "allow_personas"
  | .denyPersonas => "deny_personas"
  | .stage => "stage"
  | .source => "source"
  | .limit => "limit"
  | .display => "display"
  | .groupBy => "group_by"
  | .aggregate => "aggregate"
  | .start => "start"
  | .at => "at"
  | .step => "step"
  | .kind => "kind"
  | .spec => "spec"
  | .authProfile => "auth_profile"
  | .owner => "owner"
  | .input => "input"
  | .output => "output"
  | .guarantees => "guarantees"
  | .stub => "stub"
  | .from => "from"
  | .key => "key"
  | .constraint => "constraint"
  | .call => "call"
  | .operation => "operation"
  | .mapping => "mapping"
  | .response => "response"
  | .sync => "sync"
  | .into => "into"
  | .match => "match"
  | .rules => "rules"
  | .setup => "setup"
  | .data => "data"
  | .expect => "expect"
  | .with => "with"
  | .tags => "tags"
  | .preconditions => "preconditions"
  | .steps => "steps"
  | .goals => "goals"
  | .proficiency => "proficiency"
  | .defaultWorkspace => "default_workspace"
  | .defaultRoute => "default_route"
  | .seedScript => "seed_script"
  | .startRoute => "start_route"
  | .actor => "actor"
  | .trigger => "trigger"
  | .given => "given"
  | .then => "then"
  | .unless => "unless"
  | .status => "status"
  | .provider => "provider"
  | .modelId => "model_id"
  | .tier => "tier"
  | .maxTokens => "max_tokens"
  | .costPer1kInput => "cost_per_1k_input"
  | .costPer1kOutput => "cost_per_1k_output"
  | .defaultModel => "default_model"
  | .artifactStore => "artifact_store"
  | .logging => "logging"
  | .rateLimits => "rate_limits"
  | .model => "model"
  | .prompt => "prompt"
  | .outputSchema => "output_schema"
  | .timeout => "timeout"
  | .retry => "retry"
  | .maxAttempts => "max_attempts"
  | .backoff => "backoff"
  | .initialDelay => "initial_delay"
  | .pii => "pii"
  | .accountCode => "account_code"
  | .ledgerId => "ledger_id"
  | .accountType => "account_type"
  | .currency => "currency"
  | .flags => "flags"
  | .syncTo => "sync_to"
  | .tenantScoped => "tenant_scoped"
  | .execution => "execution"
  | .transfer => "transfer"
  | .debit => "debit"
  | .credit => "credit"
  | .amount => "amount"
  | .idempotencyKey => "idempotency_key"
  | .validation => "validation"
  | .implements => "implements"
  | .parallel => "parallel"
  | .compensations => "compensations"
  | .overlap => "overlap"
  | .waitFor => "wait_for"
  | .humanTask => "human_task"
  | .condition => "condition"
  | .onSuccess => "on_success"
  | .onFailure => "on_failure"
  | .onTimeout => "on_timeout"
  | .assigneeRole => "assignee_role"
  | .outcomes => "outcomes"
  | .subprocess => "subprocess"
  | .cron => "cron"
  | .interval => "interval"
  | .catchUp => "catch_up"
  | .partitionKey => "partition_key"
  | .orderingScope => "ordering_scope"
  | .retention => "retention"
  | .schema => "schema"
  | .derivesFrom => "derives_from"
  | .classify => "classify"
  | .erasure => "erasure"
  | .defaultRetention => "default_retention"
  | .auditAccess => "audit_access"
  | .isolation => "isolation"
  | .provisioning => "provisioning"
  | .api => "api"
  | .expose => "expose"
  | .style => "style"
  | .version => "version"
  | .auth => "auth"
  | .rateLimit => "rate_limit"
  | .dataProduct => "data_product"
  | .refresh => "refresh"
  | .classificationFilter => "classification_filter"
  | .approverRole => "approver_role"
  | .quorum => "quorum"
  | .escalationRole => "escalation_role"
  | .startsWhen => "starts_when"
  | .pausesWhen => "pauses_when"
  | .completesWhen => "completes_when"
  | .tiers => "tiers"
  | .businessHours => "business_hours"
  | .onBreach => "on_breach"
  | .notify => "notify"
  | .set => "set"
  | .events => "events"
  | .payload => "payload"
  | .include => "include"
  | .format => "format"
  | .fields => "fields"

/-- The reserved words, in table order. -/
def Keyword.reserved : List Keyword :=
  [.module, .use, .app, .entity, .archetype, .surface, .workspace, .experience, .foreignModel,
   .integration, .persona, .scenario, .llmModel, .llmConfig, .llmIntent, .ledger, .process,
   .schedule, .stream, .policies, .tenancy, .interfaces, .dataProducts, .approval, .sla,
   .webhook, .andOp, .orOp, .notOp, .trueLit, .falseLit, .nullLit]

/-- The contextual words, in table order. -/
def Keyword.contextual : List Keyword :=
  [.enum, .service, .test, .flow, .story, .transaction, .view, .as, .description,
   .multiTenant, .auditTrail, .securityProfile, .extends, .computed, .invariant, .message,
   .code, .unique, .index, .transitions, .access, .permit, .forbid, .softDelete, .intent,
   .domain, .patterns, .displayField, .requires, .role, .auto, .after, .manual, .guard, .read,
   .write, .create, .update, .delete, .list, .str, .text, .int, .float, .decimal, .bool,
   .date, .datetime, .time, .uuid, .email, .url, .phone, .json, .money, .file, .image,
   .timezone, .ref, .hasMany, .hasOne, .belongsTo, .embeds, .via, .cascade, .restrict,
   .nullify, .readonly, .required, .optional, .pk, .autoAdd, .autoUpdate, .sensitive, .in,
   .is, .today, .now, .count, .sum, .avg, .min, .max, .daysUntil, .daysSince, .uses, .mode,
   .section, .field, .action, .on, .ux, .purpose, .sort, .filter, .search, .empty, .attention,
   .when, .for, .scope, .hide, .show, .showAggregate, .actionPrimary, .readOnly, .priority,
   .requireAuth, .allowPersonas, .denyPersonas, .stage, .source, .limit, .display, .groupBy,
   .aggregate, .start, .at, .step, .kind, .spec, .authProfile, .owner, .input, .output,
   .guarantees, .stub, .from, .key, .constraint, .call, .operation, .mapping, .response,
   .sync, .into, .match, .rules, .setup, .data, .expect, .with, .tags, .preconditions, .steps,
   .goals, .proficiency, .defaultWorkspace, .defaultRoute, .seedScript, .startRoute, .actor,
   .trigger, .given, .then, .unless, .status, .provider, .modelId, .tier, .maxTokens,
   .costPer1kInput, .costPer1kOutput, .defaultModel, .artifactStore, .logging, .rateLimits,
   .model, .prompt, .outputSchema, .timeout, .retry, .maxAttempts, .backoff, .initialDelay,
   .pii, .accountCode, .ledgerId, .accountType, .currency, .flags, .syncTo, .tenantScoped,
   .execution, .transfer, .debit, .credit, .amount, .idempotencyKey, .validation, .implements,
   .parallel, .compensations, .overlap, .waitFor, .humanTask, .condition, .onSuccess,
   .onFailure, .onTimeout, .assigneeRole, .outcomes, .subprocess, .cron, .interval, .catchUp,
   .partitionKey, .orderingScope, .retention, .schema, .derivesFrom, .classify, .erasure,
   .defaultRetention, .auditAccess, .isolation, .provisioning, .api, .expose, .style,
   .version, .auth, .rateLimit, .dataProduct, .refresh, .classificationFilter, .approverRole,
   .quorum, .escalationRole, .startsWhen, .pausesWhen, .completesWhen, .tiers, .businessHours,
   .onBreach, .notify, .set, .events, .payload, .include, .format, .fields]

/-- Every word, in table order. -/
def Keyword.all : List Keyword := reserved ++ contextual

/-- The keyword with the given spelling. -/
def Keyword.ofSpelling? (text : String) : Option Keyword :=
  all.find? fun k => k.spelling == text

/-- Whether the word may stand as a name. -/
def Keyword.canName (k : Keyword) : Bool :=
  !reserved.contains k

/-- Names offered in place of a keyword that cannot be used as one. -/
def Keyword.alternatives : Keyword → List String
  | .entity => ["entity_ref", "target_entity", "record"]
  | .surface => ["screen", "page", "surface_name"]
  | .workspace => ["work_area", "dashboard", "workspace_name"]
  | .experience => ["journey", "experience_name"]
  | .module => ["module_name", "component"]
  | .use => ["usage", "used_by"]
  | .app => ["application", "app_name"]
  | .archetype => ["template", "base_type"]
  | .persona => ["persona_name", "user_type", "audience"]
  | .scenario => ["situation", "scenario_name"]
  | .process => ["procedure", "workflow", "process_name"]
  | .schedule => ["timetable", "cadence", "schedule_name"]
  | .stream => ["event_stream", "feed", "channel"]
  | .ledger => ["account_book", "ledger_name"]
  | .integration => ["connector", "integration_name"]
  | .foreignModel => ["external_model", "remote_model"]
  | .approval => ["approval_state", "sign_off"]
  | .sla => ["service_level", "deadline"]
  | .webhook => ["callback", "hook_url"]
  | .policies => ["policy_set", "rules"]
  | .tenancy => ["tenant_mode", "tenant_info"]
  | .interfaces => ["apis", "endpoints"]
  | .dataProducts => ["datasets", "exports"]
  | .llmModel | .llmConfig | .llmIntent => ["ai_model", "model_ref", "assistant"]
  | .andOp | .orOp | .notOp => ["flag", "condition_flag"]
  | .trueLit | .falseLit => ["is_enabled", "flag"]
  | .nullLit => ["empty_value", "none_value"]
  | k => [k.spelling ++ "_name", k.spelling ++ "_value"]

end Blueprint
