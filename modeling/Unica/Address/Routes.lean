import Unica.Address.Segment

/-!
# Module routes

Which addresses lead to a code module: an owner, a role read from the name of the `Module`
segment, and behind them the branches that project the module.
-/

namespace Unica.Address

inductive ModuleRole where
  | object | manager | recordSet | valueManager | common | form | command | managedApplication
  | ordinaryApplication | session | externalConnection | httpService | webService
  | integrationService | bot | webSocketClient
  deriving DecidableEq

def ModuleRole.fromSemanticName (value : Text) : Option ModuleRole :=
  match String.ofList value with
  | "Object" => some .object
  | "Manager" => some .manager
  | "RecordSet" => some .recordSet
  | "ValueManager" => some .valueManager
  | "Form" => some .form
  | "Command" => some .command
  | "ManagedApplication" => some .managedApplication
  | "OrdinaryApplication" => some .ordinaryApplication
  | "Session" => some .session
  | "ExternalConnection" => some .externalConnection
  | "HTTPService" => some .httpService
  | "WebService" => some .webService
  | "IntegrationService" => some .integrationService
  | "Bot" => some .bot
  | "WebSocketClient" => some .webSocketClient
  | _ => none

inductive ModuleRouteKind where
  | root | direct | common | commonForm | commonCommand | nestedForm | nestedCommand | service
  | bot | webSocketClient
  deriving DecidableEq

structure ModuleRoute where
  ownerKind : NodeKind
  role : ModuleRole
  routeKind : ModuleRouteKind
  deriving DecidableEq

def hasDirectModuleRoute (ownerKind : NodeKind) (role : ModuleRole) : Bool :=
  match role with
  | .object =>
    match ownerKind with
    | .catalog | .document | .exchangePlan | .chartOfAccounts | .chartOfCharacteristicTypes
    | .chartOfCalculationTypes | .businessProcess | .task | .report | .dataProcessor
    | .externalDataProcessor | .externalReport => true
    | _ => false
  | .manager =>
    match ownerKind with
    | .catalog | .document | .informationRegister | .accumulationRegister | .accountingRegister
    | .calculationRegister | .chartOfAccounts | .chartOfCharacteristicTypes
    | .chartOfCalculationTypes | .businessProcess | .task | .exchangePlan | .enum | .report
    | .dataProcessor | .constant | .documentJournal | .filterCriterion | .settingsStorage => true
    | _ => false
  | .recordSet =>
    match ownerKind with
    | .informationRegister | .accumulationRegister | .accountingRegister
    | .calculationRegister => true
    | _ => false
  | .valueManager => ownerKind == .constant
  | _ => false

def hasNestedModuleRoute : NodeKind → Bool
  | .document | .catalog | .dataProcessor | .report | .informationRegister
  | .accumulationRegister | .accountingRegister | .calculationRegister | .chartOfAccounts
  | .chartOfCharacteristicTypes | .chartOfCalculationTypes | .exchangePlan | .businessProcess
  | .task | .documentJournal | .enum | .constant | .sequence | .documentNumerator
  | .externalDataProcessor | .externalReport => true
  | _ => false

/-- The branches a module is read through: its methods, interface and events, the body or the
compilation of the module or of one method, and nested regions. -/
def moduleProjectionSuffixIsValid (suffix : List AddressSegment) : Bool :=
  let projection (segment : AddressSegment) : Bool :=
    (segment.kind == .compilation || segment.kind == .body) && segment.name.isNone
  let branches : Bool :=
    match suffix with
    | [] => true
    | [branch] =>
      projection branch || branch.kind == .method || branch.kind == .interface ||
        branch.kind == .event
    | [method, body] => method.kind == .method && method.name.isSome && projection body
    | _ => false
  branches || (suffix.all (fun region => region.kind == .region) &&
      suffix.dropLast.all fun region => region.name.isSome)

def directOrNamedModule (owner : NodeKind) (rawRole : Text) : Option ModuleRoute := do
  let role ← ModuleRole.fromSemanticName rawRole
  if hasDirectModuleRoute owner role then return ⟨owner, role, .direct⟩
  match owner, role with
  | .commonForm, .form => some ⟨owner, role, .commonForm⟩
  | .commonCommand, .command => some ⟨owner, role, .commonCommand⟩
  | .httpService, .httpService | .webService, .webService
  | .integrationService, .integrationService => some ⟨owner, role, .service⟩
  | .bot, .bot => some ⟨owner, role, .bot⟩
  | .webSocketClient, .webSocketClient => some ⟨owner, role, .webSocketClient⟩
  | _, _ => none

def nestedModule (owner child : NodeKind) (rawRole : Text) : Option ModuleRoute := do
  if !hasNestedModuleRoute owner then none
  match child, ← ModuleRole.fromSemanticName rawRole with
  | .form, .form => some ⟨owner, .form, .nestedForm⟩
  | .command, .command => some ⟨owner, .command, .nestedCommand⟩
  | _, _ => none

def moduleRouteForSegments : List AddressSegment → Option ModuleRoute
  | [owner] =>
    if owner.name.isSome && owner.kind == .commonModule then
      some ⟨.commonModule, .common, .common⟩
    else if owner.kind == .moduleKind then do
      match ← ModuleRole.fromSemanticName (← owner.name) with
      | .managedApplication => some ⟨.configuration, .managedApplication, .root⟩
      | .ordinaryApplication => some ⟨.configuration, .ordinaryApplication, .root⟩
      | .session => some ⟨.configuration, .session, .root⟩
      | .externalConnection => some ⟨.configuration, .externalConnection, .root⟩
      | _ => none
    else none
  | [owner, module] =>
    if owner.name.isSome && module.kind == .moduleKind then
      module.name.bind (directOrNamedModule owner.kind)
    else none
  | [owner, child, module] =>
    if owner.name.isSome && child.name.isSome && module.kind == .moduleKind then
      module.name.bind (nestedModule owner.kind child.kind)
    else none
  | _ => none

/-- The route of the longest leading part of the address that names a module and whose rest
projects it. -/
def modulePrefixRoute (segments : List AddressSegment) : Option ModuleRoute :=
  (List.range segments.length).reverse.findSome? fun index => do
    let route ← moduleRouteForSegments (segments.take (index + 1))
    if moduleProjectionSuffixIsValid (segments.drop (index + 1)) then some route else none

end Unica.Address
