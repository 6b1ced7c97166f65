import Unica.Lib.Checked
import Mathlib.Data.List.Nodup

/-!
# Kinds of address segments

The vocabulary of `unica-address`: the kinds of nodes a logical address is built of, their
canonical and Russian spellings, and how a word of an address is read as a kind. The lookup
prefers the metadata kinds, whose spellings the source-target table owns.
-/

namespace Unica.Address

open List String

abbrev Text := List Char

inductive AddressErrorCode where
  | sourceSetRequired | ambiguousAddress | addressEmpty | emptySegment | unknownKind
  | invalidName | configurationRootOnly
  deriving DecidableEq

structure AddressError where
  code : AddressErrorCode
  message : String
  deriving DecidableEq

-- A kind whose word Lean reserves is written with `Kind` behind it.
inductive NodeKind where
  | configuration | language | subsystem | styleItem | style | commonPicture | sessionParameter
  | role | commonTemplate | filterCriterion | commonModule | bot | commonAttribute | exchangePlan
  | xdtoPackage | webService | httpService | wsReference | eventSubscription | scheduledJob
  | schedule | definition | settingsStorage | functionalOption | functionalOptionsParameter
  | definedType | commonCommand | commandGroup | constant | commonForm | catalog | document
  | documentNumerator | sequence | documentJournal | enum | report | dataProcessor
  | informationRegister | accumulationRegister | chartOfCharacteristicTypes | chartOfAccounts
  | accountingRegister | chartOfCalculationTypes | calculationRegister | businessProcess | task
  | integrationService | form | metadata | template | command | externalDataProcessor
  | externalReport | webSocketClient | attributeKind | addressingAttribute | standardAttribute
  | tabularSection | dimension | resource | enumValue | column | recalculation | item | parameter
  | right | rls | dataSet | field | query | dataSource | calculatedField | total | setting | area
  | group | moduleKind | method | body | region | interface | event | compilation | urlTemplate
  | operation | channel | namespaceKind | type | property | relation | characteristic
  | standardTabularSection | caller | callee | predefinedItem | can | props
  deriving DecidableEq

namespace NodeKind

def asStr : NodeKind → String
  | .configuration => "Configuration"
  | .language => "Language"
  | .subsystem => "Subsystem"
  | .styleItem => "StyleItem"
  | .style => "Style"
  | .commonPicture => "CommonPicture"
  | .sessionParameter => "SessionParameter"
  | .role => "Role"
  | .commonTemplate => "CommonTemplate"
  | .filterCriterion => "FilterCriterion"
  | .commonModule => "CommonModule"
  | .bot => "Bot"
  | .commonAttribute => "CommonAttribute"
  | .exchangePlan => "ExchangePlan"
  | .xdtoPackage => "XDTOPackage"
  | .webService => "WebService"
  | .httpService => "HTTPService"
  | .wsReference => "WSReference"
  | .eventSubscription => "EventSubscription"
  | .scheduledJob => "ScheduledJob"
  | .schedule => "Schedule"
  | .definition => "Definition"
  | .settingsStorage => "SettingsStorage"
  | .functionalOption => "FunctionalOption"
  | .functionalOptionsParameter => "FunctionalOptionsParameter"
  | .definedType => "DefinedType"
  | .commonCommand => "CommonCommand"
  | .commandGroup => "CommandGroup"
  | .constant => "Constant"
  | .commonForm => "CommonForm"
  | .catalog => "Catalog"
  | .document => "Document"
  | .documentNumerator => "DocumentNumerator"
  | .sequence => "Sequence"
  | .documentJournal => "DocumentJournal"
  | .enum => "Enum"
  | .report => "Report"
  | .dataProcessor => "DataProcessor"
  | .informationRegister => "InformationRegister"
  | .accumulationRegister => "AccumulationRegister"
  | .chartOfCharacteristicTypes => "ChartOfCharacteristicTypes"
  | .chartOfAccounts => "ChartOfAccounts"
  | .accountingRegister => "AccountingRegister"
  | .chartOfCalculationTypes => "ChartOfCalculationTypes"
  | .calculationRegister => "CalculationRegister"
  | .businessProcess => "BusinessProcess"
  | .task => "Task"
  | .integrationService => "IntegrationService"
  | .form => "Form"
  | .metadata => "Metadata"
  | .template => "Template"
  | .command => "Command"
  | .externalDataProcessor => "ExternalDataProcessor"
  | .externalReport => "ExternalReport"
  | .webSocketClient => "WebSocketClient"
  | .attributeKind => "Attribute"
  | .addressingAttribute => "AddressingAttribute"
  | .standardAttribute => "StandardAttribute"
  | .tabularSection => "TabularSection"
  | .dimension => "Dimension"
  | .resource => "Resource"
  | .enumValue => "EnumValue"
  | .column => "Column"
  | .recalculation => "Recalculation"
  | .item => "Item"
  | .parameter => "Parameter"
  | .right => "Right"
  | .rls => "RLS"
  | .dataSet => "DataSet"
  | .field => "Field"
  | .query => "Query"
  | .dataSource => "DataSource"
  | .calculatedField => "CalculatedField"
  | .total => "Total"
  | .setting => "Setting"
  | .area => "Area"
  | .group => "Group"
  | .moduleKind => "Module"
  | .method => "Method"
  | .body => "Body"
  | .region => "Region"
  | .interface => "Interface"
  | .event => "Event"
  | .compilation => "Compilation"
  | .urlTemplate => "URLTemplate"
  | .operation => "Operation"
  | .channel => "Channel"
  | .namespaceKind => "Namespace"
  | .type => "Type"
  | .property => "Property"
  | .relation => "Relation"
  | .characteristic => "Characteristic"
  | .standardTabularSection => "StandardTabularSection"
  | .caller => "Caller"
  | .callee => "Callee"
  | .predefinedItem => "PredefinedItem"
  | .can => "Can"
  | .props => "Props"

def legacyMetadataKinds : List NodeKind :=
  [.language, .subsystem, .styleItem, .style, .commonPicture, .sessionParameter, .role,
   .commonTemplate, .filterCriterion, .commonModule, .bot, .commonAttribute, .exchangePlan,
   .xdtoPackage, .webService, .httpService, .wsReference, .eventSubscription, .scheduledJob,
   .settingsStorage, .functionalOption, .functionalOptionsParameter, .definedType, .commonCommand,
   .commandGroup, .constant, .commonForm, .catalog, .document, .documentNumerator, .sequence,
   .documentJournal, .enum, .report, .dataProcessor, .informationRegister, .accumulationRegister,
   .chartOfCharacteristicTypes, .chartOfAccounts, .accountingRegister, .chartOfCalculationTypes,
   .calculationRegister, .businessProcess, .task, .integrationService, .form, .template, .command,
   .externalDataProcessor, .externalReport]

structure V13KindSpelling where
  kind : NodeKind
  aliases : List String

def v13KindSpellings : List V13KindSpelling :=
  [⟨.configuration, ["Конфигурация"]⟩, ⟨.metadata, ["Метаданные"]⟩, ⟨.schedule, ["Расписание"]⟩,
   ⟨.webSocketClient, []⟩, ⟨.attributeKind, ["Реквизит"]⟩,
   ⟨.addressingAttribute, ["РеквизитАдресации"]⟩, ⟨.standardAttribute, ["СтандартныйРеквизит"]⟩,
   ⟨.tabularSection, ["ТабличнаяЧасть"]⟩, ⟨.dimension, ["Измерение"]⟩, ⟨.resource, ["Ресурс"]⟩,
   ⟨.enumValue, ["ЗначениеПеречисления"]⟩, ⟨.column, ["Колонка"]⟩,
   ⟨.recalculation, ["Перерасчет", "Перерасчёт", "Перерасчеты", "Перерасчёты"]⟩,
   ⟨.item, ["Элемент"]⟩, ⟨.parameter, ["Параметр"]⟩, ⟨.right, ["Право"]⟩, ⟨.rls, []⟩,
   ⟨.dataSet, ["НаборДанных"]⟩, ⟨.field, ["Поле"]⟩, ⟨.query, ["Запрос"]⟩,
   ⟨.dataSource, ["ИсточникДанных"]⟩, ⟨.calculatedField, ["ВычисляемоеПоле"]⟩, ⟨.total, ["Итог"]⟩,
   ⟨.setting, ["Настройка"]⟩, ⟨.area, ["Область"]⟩, ⟨.moduleKind, ["Модуль"]⟩,
   ⟨.method, ["Метод"]⟩, ⟨.body, ["Тело"]⟩, ⟨.region, ["ОбластьКода"]⟩,
   ⟨.interface, ["Интерфейс"]⟩, ⟨.group, ["Группа"]⟩, ⟨.event, ["Событие"]⟩,
   ⟨.compilation, ["Компиляция"]⟩, ⟨.urlTemplate, ["ШаблонURL"]⟩, ⟨.operation, ["Операция"]⟩,
   ⟨.channel, ["Канал"]⟩, ⟨.namespaceKind, ["ПространствоИмен"]⟩, ⟨.type, ["Тип"]⟩,
   ⟨.property, ["Свойство"]⟩, ⟨.definition, ["Определение"]⟩, ⟨.relation, ["Связь"]⟩,
   ⟨.characteristic, ["Характеристика"]⟩,
   ⟨.standardTabularSection, ["СтандартнаяТабличнаяЧасть"]⟩, ⟨.caller, ["Вызывающий"]⟩,
   ⟨.callee, ["Вызываемый"]⟩, ⟨.predefinedItem, ["ПредопределённыйЭлемент"]⟩, ⟨.can, []⟩,
   ⟨.props, []⟩]

structure AddressKind where
  canonical : String
  russianAliases : List String

def addressKinds : List AddressKind :=
  [⟨"Language", ["Язык"]⟩, ⟨"Subsystem", ["Подсистема"]⟩, ⟨"StyleItem", ["ЭлементСтиля"]⟩,
   ⟨"Style", ["Стиль"]⟩, ⟨"CommonPicture", ["ОбщаяКартинка"]⟩,
   ⟨"SessionParameter", ["ПараметрСеанса"]⟩, ⟨"Role", ["Роль"]⟩,
   ⟨"CommonTemplate", ["ОбщийМакет"]⟩, ⟨"FilterCriterion", ["КритерийОтбора"]⟩,
   ⟨"CommonModule", ["ОбщийМодуль"]⟩, ⟨"Bot", ["Бот"]⟩, ⟨"CommonAttribute", ["ОбщийРеквизит"]⟩,
   ⟨"ExchangePlan", ["ПланОбмена"]⟩, ⟨"XDTOPackage", ["ПакетXDTO"]⟩,
   ⟨"WebService", ["ВебСервис"]⟩, ⟨"HTTPService", ["HTTPСервис"]⟩, ⟨"WSReference", ["WSСсылка"]⟩,
   ⟨"EventSubscription", ["ПодпискаНаСобытие"]⟩, ⟨"ScheduledJob", ["РегламентноеЗадание"]⟩,
   ⟨"SettingsStorage", ["ХранилищеНастроек"]⟩, ⟨"FunctionalOption", ["ФункциональнаяОпция"]⟩,
   ⟨"FunctionalOptionsParameter", ["ПараметрФункциональнойОпции"]⟩,
   ⟨"DefinedType", ["ОпределяемыйТип"]⟩, ⟨"CommonCommand", ["ОбщаяКоманда"]⟩,
   ⟨"CommandGroup", ["ГруппаКоманд"]⟩, ⟨"Constant", ["Константа"]⟩,
   ⟨"CommonForm", ["ОбщаяФорма"]⟩, ⟨"Catalog", ["Справочник"]⟩, ⟨"Document", ["Документ"]⟩,
   ⟨"DocumentNumerator", ["НумераторДокументов"]⟩, ⟨"Sequence", ["Последовательность"]⟩,
   ⟨"DocumentJournal", ["ЖурналДокументов"]⟩, ⟨"Enum", ["Перечисление"]⟩,
   ⟨"Report", ["Отчет", "Отчёт"]⟩, ⟨"DataProcessor", ["Обработка"]⟩,
   ⟨"InformationRegister", ["РегистрСведений"]⟩, ⟨"AccumulationRegister", ["РегистрНакопления"]⟩,
   ⟨"ChartOfCharacteristicTypes", ["ПланВидовХарактеристик"]⟩,
   ⟨"ChartOfAccounts", ["ПланСчетов"]⟩, ⟨"AccountingRegister", ["РегистрБухгалтерии"]⟩,
   ⟨"ChartOfCalculationTypes", ["ПланВидовРасчета", "ПланВидовРасчёта"]⟩,
   ⟨"CalculationRegister", ["РегистрРасчета", "РегистрРасчёта"]⟩,
   ⟨"BusinessProcess", ["БизнесПроцесс"]⟩, ⟨"Task", ["Задача"]⟩,
   ⟨"IntegrationService", ["СервисИнтеграции"]⟩, ⟨"Form", ["Форма"]⟩, ⟨"Template", ["Макет"]⟩,
   ⟨"Command", ["Команда"]⟩, ⟨"ExternalDataProcessor", ["ВнешняяОбработка"]⟩,
   ⟨"ExternalReport", ["ВнешнийОтчет", "ВнешнийОтчёт"]⟩]

/-- Whether `raw` is the canonical spelling or a Russian alias of the kind `canonical`. -/
def metadataAddressKindMatches (canonical raw : String) : Bool :=
  match addressKinds.find? (·.canonical == canonical) with
  | some kind => kind.canonical == raw || kind.russianAliases.contains raw
  | none => false

def parse (token : Text) : Except AddressError NodeKind :=
  let token := String.ofList token
  match legacyMetadataKinds.find? (fun kind => metadataAddressKindMatches kind.asStr token) with
  | some kind => .ok kind
  | none =>
    match v13KindSpellings.find? (fun spelling =>
        spelling.kind.asStr == token || spelling.aliases.contains token) with
    | some spelling => .ok spelling.kind
    | none => .error ⟨.unknownKind, "unknown logical node kind `" ++ token ++ "`"⟩

/-- Whether the kind carries an application name; a kind without one is the only child of its
kind, so the next part of the address is a kind again. -/
def takesName : NodeKind → Bool
  | .configuration | .interface | .metadata | .schedule | .definition => false
  | _ => true

def isMetadataKind (kind : NodeKind) : Bool :=
  kind == .webSocketClient || legacyMetadataKinds.contains kind

/-! ## Spellings

A canonical spelling is made of Latin letters; an alias has some other letter, and neither
holds a `#`. A literal is compared with the list of its letters, so that no text is decoded. -/

def Latin (word : String) : Prop := ∀ c ∈ word.toList, c.isAlpha = true

structure Foreign (word : String) : Prop where
  other : ∃ c ∈ word.toList, c.isAlpha = false
  plain : '#' ∉ word.toList

theorem latin_ofList (letters : List Char) (h : letters.all Char.isAlpha = true) :
    Latin (ofList letters) := by
  intro c hc
  rw [toList_ofList] at hc
  exact all_eq_true.mp h c hc

theorem foreign_ofList (letters : List Char)
    (h : (letters.any (fun c => !c.isAlpha) && !letters.contains '#') = true) :
    Foreign (ofList letters) := by
  rw [Bool.and_eq_true] at h
  constructor
  · obtain ⟨c, hc, hother⟩ := any_eq_true.mp h.1
    rw [toList_ofList]
    exact ⟨c, hc, by simpa using hother⟩
  · rw [toList_ofList]
    simpa using h.2

theorem Foreign.not_latin {word : String} (h : Foreign word) : ¬ Latin word := by
  intro hlatin
  obtain ⟨c, hc, hother⟩ := h.other
  simp [hlatin c hc] at hother

theorem ofList_cons_ne_nil (c : Char) (letters : List Char) : (ofList (c :: letters)).toList ≠ [] := by
  simp

theorem asStr_ne_nil (kind : NodeKind) : kind.asStr.toList ≠ [] := by
  cases kind <;> exact ofList_cons_ne_nil _ _

theorem latin_asStr (kind : NodeKind) : Latin kind.asStr := by
  cases kind <;> exact latin_ofList _ rfl

theorem foreign_russianAliases : ∀ entry ∈ addressKinds, ∀ word ∈ entry.russianAliases, Foreign word := by
  simp only [addressKinds, forall_mem_cons, not_mem_nil, false_imp_iff, implies_true, and_true]
  and_intros
  all_goals exact foreign_ofList _ rfl

theorem foreign_aliases : ∀ spelling ∈ v13KindSpellings, ∀ word ∈ spelling.aliases, Foreign word := by
  simp only [v13KindSpellings, forall_mem_cons, not_mem_nil, false_imp_iff,
    implies_true, and_true, true_and]
  and_intros
  all_goals exact foreign_ofList _ rfl

def all : List NodeKind :=
  v13KindSpellings.map (·.kind) ++ legacyMetadataKinds

theorem mem_all (kind : NodeKind) : kind ∈ all := by
  cases kind <;> decide

theorem asStr_injective : Function.Injective asStr := by
  have hnodup : (all.map asStr).Nodup := by
    simp [all, v13KindSpellings, legacyMetadataKinds, asStr]
  intro a b h
  exact inj_on_of_nodup_map hnodup (mem_all a) (mem_all b) h

/-! ## Reading a word as a kind -/

theorem matches_inv {canonical raw : String} (h : metadataAddressKindMatches canonical raw = true) :
    ∃ entry ∈ addressKinds, entry.canonical = canonical ∧
      (raw = canonical ∨ raw ∈ entry.russianAliases) := by
  unfold metadataAddressKindMatches at h
  split at h
  · rename_i entry hfind
    have hcanonical : entry.canonical = canonical := by
      simpa using find?_some hfind
    refine ⟨entry, mem_of_find?_eq_some hfind, hcanonical, ?_⟩
    simp only [Bool.or_eq_true, beq_iff_eq, contains_iff_mem] at h
    rw [hcanonical] at h
    exact h.imp Eq.symm id
  · cases h

theorem matches_self {kind : NodeKind} (h : kind ∈ legacyMetadataKinds) :
    metadataAddressKindMatches kind.asStr kind.asStr = true := by
  have hmem : kind.asStr ∈ addressKinds.map (·.canonical) := by
    exact mem_map_of_mem h
  obtain ⟨entry, hentry, hcanonical⟩ := mem_map.mp hmem
  unfold metadataAddressKindMatches
  split
  · rename_i found hfind
    have hfound : found.canonical = kind.asStr := by
      simpa using find?_some hfind
    simp [hfound]
  · rename_i hnone
    have hne := find?_eq_none.mp hnone entry hentry
    simp [hcanonical] at hne

theorem matches_asStr {a b : NodeKind} (h : metadataAddressKindMatches a.asStr b.asStr = true) : a = b := by
  obtain ⟨entry, hentry, -, hsame | halias⟩ := matches_inv h
  · exact asStr_injective hsame.symm
  · exact ((foreign_russianAliases entry hentry _ halias).not_latin (latin_asStr b)).elim

/-- A kind is read back from its canonical spelling. -/
@[simp] theorem parse_asStr (kind : NodeKind) : parse kind.asStr.toList = .ok kind := by
  unfold parse
  simp only [ofList_toList]
  split
  · rename_i found hfind
    have hfound := find?_some hfind
    rw [matches_asStr hfound]
  · rename_i hnone
    have hlegacy : kind ∉ legacyMetadataKinds := by
      intro hmem
      exact find?_eq_none.mp hnone kind hmem (matches_self hmem)
    obtain ⟨spelling, hmem, hkind⟩ : ∃ spelling ∈ v13KindSpellings, spelling.kind = kind := by
      have hall := mem_all kind
      simpa [all, hlegacy] using hall
    split
    · rename_i found hfind
      have hfound := find?_some hfind
      simp only [Bool.or_eq_true, beq_iff_eq, contains_iff_mem] at hfound
      obtain hsame | halias := hfound
      · rw [asStr_injective hsame]
      · exact ((foreign_aliases _ (mem_of_find?_eq_some hfind) _ halias).not_latin (latin_asStr kind)).elim
    · rename_i hnone
      have hne := find?_eq_none.mp hnone spelling hmem
      simp [hkind] at hne

theorem plain_asStr (kind : NodeKind) : '#' ∉ kind.asStr.toList := by
  intro hmem
  have hletter := latin_asStr kind '#' hmem
  cases hletter

/-- A word with a `#` in it is no kind. -/
theorem parse_plain {token : Text} {kind : NodeKind} (h : parse token = .ok kind) : '#' ∉ token := by
  have hlist : token = (ofList token).toList := toList_ofList.symm
  rw [hlist]
  unfold parse at h
  simp only at h
  split at h
  · rename_i found hfind
    have hfound := find?_some hfind
    obtain ⟨entry, hentry, -, hsame | halias⟩ := matches_inv hfound
    · rw [hsame]
      exact plain_asStr found
    · exact (foreign_russianAliases entry hentry _ halias).plain
  · split at h
    · rename_i found hfind
      have hfound := find?_some hfind
      simp only [Bool.or_eq_true, beq_iff_eq, contains_iff_mem] at hfound
      obtain hsame | halias := hfound
      · rw [← hsame]
        exact plain_asStr found.kind
      · exact (foreign_aliases found (mem_of_find?_eq_some hfind) _ halias).plain
    · cases h

end NodeKind

end Unica.Address
