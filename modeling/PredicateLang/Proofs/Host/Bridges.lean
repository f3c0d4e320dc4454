import Mathlib.Data.List.Perm.Basic
import PredicateLang.Host.Conversion
import PredicateLang.Proofs.Fields
import PredicateLang.Proofs.Number.Singles

set_option autoImplicit false

namespace PredicateLang

/-- The outcomes of the two ways. Both fail where something is missing. Elsewhere the direct one gives a value,
and the other gives the same just if nothing strays. -/
inductive Concur {α : Type} (missing strays : Prop) : Except BridgeFault α → Except BridgeFault α → Prop
  | fail (lacks : missing) (fault other : BridgeFault) : Concur missing strays (.error fault) (.error other)
  | give (full : ¬ missing) {a : α} {back : Except BridgeFault α} (agree : back = .ok a ↔ ¬ strays) :
      Concur missing strays (.ok a) back

namespace Concur

variable {α β γ : Type} {missing lacking strays others : Prop} {x y : Except BridgeFault α}
  {u v : Except BridgeFault β}

theorem same (full : ¬ missing) (calm : ¬ strays) (a : α) : Concur missing strays (.ok a) (.ok a) :=
  .give full ⟨fun _ => calm, fun _ => rfl⟩

theorem map (concur : Concur missing strays x y) {f : α → β} (injective : Function.Injective f) :
    Concur missing strays (x.map f) (y.map f) := by
  cases concur with
  | fail lacks fault other => exact .fail lacks fault other
  | @give full a _ agree =>
      refine .give full (Iff.trans ?_ agree)
      cases y with
      | error fault => exact ⟨nofun, nofun⟩
      | ok b => simp [Except.map, injective.eq_iff]

theorem both (first : Concur missing strays x y) (second : Concur lacking others u v) {f : α → β → γ}
    (injective : Function.Injective2 f) :
    Concur (missing ∨ lacking) (strays ∨ others) (x >>= fun a => u >>= fun b => pure (f a b))
      (y >>= fun a => v >>= fun b => pure (f a b)) := by
  cases first with
  | fail lacks fault other => exact .fail (.inl lacks) fault other
  | @give full a _ agree =>
      cases second with
      | fail lacks fault other =>
          cases y with
          | error third => exact .fail (.inr lacks) fault third
          | ok b => exact .fail (.inr lacks) fault other
      | @give also b _ agree' =>
          refine .give (not_or.mpr ⟨full, also⟩) ?_
          rw [not_or, ← agree, ← agree']
          cases y with
          | error fault => exact ⟨nofun, nofun⟩
          | ok a' =>
              cases v with
              | error fault => exact ⟨nofun, nofun⟩
              | ok b' => simp [bind, Except.bind, pure, Except.pure, injective.eq_iff]

theorem of_iff (concur : Concur missing strays x y) (lack : missing ↔ lacking) (stray : strays ↔ others) :
    Concur lacking others x y := by
  rwa [← propext lack, ← propext stray]

end Concur

theorem Fields.convert_ok {α β : Type} {convert : α → Except BridgeFault β}
    (convertAll : List (String × α) → Except BridgeFault (List (String × β)))
    (empty : convertAll [] = .ok [])
    (more : ∀ name content rest, convertAll ((name, content) :: rest) =
      (convert content >>= fun b => convertAll rest >>= fun others => pure ((name, b) :: others)))
    {fields : List (String × α)} {others : List (String × β)} :
    convertAll fields = .ok others ↔ Fields.Related (fun a b => convert a = .ok b) fields others := by
  induction fields generalizing others with
  | nil =>
      rw [empty]
      constructor
      · rintro ⟨⟩
        exact .nil
      · rintro ⟨⟩
        rfl
  | cons field rest ih =>
      obtain ⟨name, content⟩ := field
      rw [more]
      constructor
      · intro given
        cases first : convert content with
        | error fault => simp [first, bind, Except.bind] at given
        | ok b =>
            cases later : convertAll rest with
            | error fault => simp [first, later, bind, Except.bind] at given
            | ok behind =>
                rw [first, later] at given
                cases given
                exact .cons ⟨rfl, first⟩ (ih.mp later)
      · rintro (_ | @⟨_, ⟨name', b⟩, _, behind, ⟨rfl, first⟩, later⟩)
        rw [first, ih.mpr later]
        rfl

namespace Json

inductive Within (part : Json) : Json → Prop
  | self : Within part part
  | item {items : List Json} {item : Json} (among : item ∈ items) (inside : Within part item) :
      Within part (.list items)
  | field {fields : List (String × Json)} {field : String × Json} (among : field ∈ fields)
      (inside : Within part field.2) : Within part (.record fields)

def Finite (json : Json) : Prop := ∀ x, Within (.number (.double x)) json → x.isFinite = true

theorem null_within_list {items : List Json} :
    Within .null (.list items) ↔ ∃ item ∈ items, Within .null item := by
  constructor
  · rintro (_ | ⟨among, inside⟩)
    exact ⟨_, among, inside⟩
  · rintro ⟨item, among, inside⟩
    exact .item among inside

theorem null_within_record {fields : List (String × Json)} :
    Within .null (.record fields) ↔ ∃ field ∈ fields, Within .null field.2 := by
  constructor
  · rintro (_ | _ | ⟨among, inside⟩)
    exact ⟨_, among, inside⟩
  · rintro ⟨field, among, inside⟩
    exact .field among inside

theorem number_concur {n : JsonNumber} (finite : Finite (.number n)) :
    ∃ v, n.toValue = .ok v := by
  cases n with
  | whole i => exact ⟨_, rfl⟩
  | double x => exact ⟨.double x, if_pos (finite x .self)⟩

theorem cons_field_injective {α : Type} (name : String) :
    Function.Injective2 fun (a : α) (fields : List (String × α)) => (name, a) :: fields := by
  rintro a b fields others ⟨⟩
  exact ⟨rfl, rfl⟩

mutual

theorem toValue_concur (json : Json) (finite : json.Finite) :
    Concur (Within .null json) False json.toValue json.toValue := by
  match json with
  | .null => exact .fail .self .null .null
  | .bool b => exact .same nofun id (Value.bool b)
  | .number n =>
      obtain ⟨v, read⟩ := number_concur finite
      rw [toValue, read]
      exact .same nofun id v
  | .text s => exact .same nofun id (Value.string s)
  | .list items =>
      have each := itemsToValues_concur items fun item among x inside => finite x (.item among inside)
      rw [toValue, null_within_list]
      exact each.map fun _ _ => Value.array.inj
  | .record fields =>
      have each := fieldsToValues_concur fields fun field among x inside => finite x (.field among inside)
      rw [toValue, null_within_record]
      exact each.map fun _ _ => Value.object.inj

theorem itemsToValues_concur (items : List Json) (finite : ∀ item ∈ items, item.Finite) :
    Concur (∃ item ∈ items, Within .null item) False (itemsToValues items) (itemsToValues items) := by
  match items with
  | [] => exact .same (by simp) id []
  | item :: rest =>
      have first := toValue_concur item (finite item List.mem_cons_self)
      have others := itemsToValues_concur rest fun other among =>
        finite other (List.mem_cons_of_mem _ among)
      rw [itemsToValues]
      exact (first.both others fun _ _ _ _ => List.cons.inj).of_iff (by simp) (by simp)

theorem fieldsToValues_concur (fields : List (String × Json)) (finite : ∀ field ∈ fields, field.2.Finite) :
    Concur (∃ field ∈ fields, Within .null field.2) False (fieldsToValues fields)
      (fieldsToValues fields) := by
  match fields with
  | [] => exact .same (by simp) id []
  | (name, content) :: rest =>
      have first := toValue_concur content (finite (name, content) List.mem_cons_self)
      have others := fieldsToValues_concur rest fun other among =>
        finite other (List.mem_cons_of_mem _ among)
      rw [fieldsToValues]
      exact (first.both others (cons_field_injective name)).of_iff (by simp) (by simp)

end

theorem settledFields_eq (fields : List (String × Json)) :
    settledFields fields = fields.map fun field => (field.1, field.2.settled) := by
  induction fields with
  | nil => rfl
  | cons field rest ih => rw [settledFields, ih, List.map_cons]

theorem names_settledFields (fields : List (String × Json)) :
    Fields.names (settledFields fields) = Fields.names fields := by
  simp [settledFields_eq, Fields.names]

theorem fieldsToValues_ok {fields : List (String × Json)} {values : List (String × Value)} :
    fieldsToValues fields = .ok values ↔
      Fields.Related (fun content v => content.toValue = .ok v) fields values :=
  Fields.convert_ok fieldsToValues rfl fun _ _ _ => rfl

section

variable {fields : List (String × Json)} (nodup : (Fields.names fields).Nodup)

include nodup

theorem toValue_record_ok {v : Value} : (Json.record fields).settled.toValue = .ok v ↔
    ∃ values, fieldsToValues (settledFields fields) = .ok values ∧ v = .record values := by
  have nodup' : (Fields.names (settledFields fields)).Nodup := by rwa [names_settledFields]
  rw [Json.settled, Json.toValue]
  constructor
  · intro given
    cases sorted : fieldsToValues (Fields.ofList (settledFields fields)) with
    | error fault =>
        rw [sorted] at given
        cases given
    | ok ordered =>
        rw [sorted] at given
        cases given
        obtain ⟨values, each, -⟩ := List.perm_comp_forall₂ (Fields.ofList_perm nodup').symm
          (fieldsToValues_ok.mp sorted)
        have same := fieldsToValues_ok.mpr (Fields.related_ofList each)
        rw [sorted] at same
        cases same
        exact ⟨values, fieldsToValues_ok.mpr each, rfl⟩
  · rintro ⟨values, given, rfl⟩
    have sorted := Fields.related_ofList (fieldsToValues_ok.mp given)
    rw [fieldsToValues_ok.mpr sorted]
    rfl

theorem toValue_record_error {fault : BridgeFault}
    (failed : fieldsToValues (settledFields fields) = .error fault) :
    ∃ other, (Json.record fields).settled.toValue = .error other := by
  cases given : (Json.record fields).settled.toValue with
  | error other => exact ⟨other, rfl⟩
  | ok v =>
      obtain ⟨values, converted, -⟩ := (toValue_record_ok nodup).mp given
      rw [failed] at converted
      cases converted

theorem settled_record_of_perm {others : List (String × Json)} (order : fields.Perm others) :
    (Json.record fields).settled = (Json.record others).settled := by
  have nodup' : (Fields.names (settledFields fields)).Nodup := by rwa [names_settledFields]
  rw [Json.settled, Json.settled]
  refine congrArg Json.record (Fields.ofList_congr ?_ nodup')
  rw [settledFields_eq, settledFields_eq]
  exact order.map _

end

end Json

namespace HostValue

/-- How fields can be called: with the mark of a raw name in front or without one, and with no other. -/
def Declarable {α : Type} (fields : List (String × α)) : Prop :=
  ∀ name ∈ Fields.names fields, '#' ∉ (writtenName name).toList

instance {α : Type} (fields : List (String × α)) : Decidable (Declarable fields) :=
  inferInstanceAs (Decidable (∀ name ∈ Fields.names fields, '#' ∉ (writtenName name).toList))

/-- The unit, an absent value or null stands somewhere inside. -/
inductive Hollow : HostValue → Prop
  | unit : Hollow .unit
  | absent : Hollow .absent
  | present {inner : HostValue} (inside : Hollow inner) : Hollow (.present inner)
  | boxed {inner : HostValue} (inside : Hollow inner) : Hollow (.boxed inner)
  | item {items : List HostValue} {item : HostValue} (among : item ∈ items) (inside : Hollow item) :
      Hollow (.sequence items)
  | entry {entries : List (String × HostValue)} {entry : String × HostValue} (among : entry ∈ entries)
      (inside : Hollow entry.2) : Hollow (.mapping entries)
  | field {fields : List (String × HostValue)} {field : String × HostValue} (among : field ∈ fields)
      (inside : Hollow field.2) : Hollow (.object fields)
  | document {json : Json} (inside : Json.Within .null json.settled) : Hollow (.document json)

/-- A structure stands somewhere inside that a document shows otherwise than as an object with the declared
names. -/
inductive Strays : HostValue → Prop
  | marker : Strays .marker
  | emptyTuple : Strays .emptyTuple
  | renamed {fields : List (String × HostValue)} {field : String × HostValue} (among : field ∈ fields)
      (other : writtenName field.1 ≠ field.1) : Strays (.object fields)
  | present {inner : HostValue} (inside : Strays inner) : Strays (.present inner)
  | boxed {inner : HostValue} (inside : Strays inner) : Strays (.boxed inner)
  | item {items : List HostValue} {item : HostValue} (among : item ∈ items) (inside : Strays item) :
      Strays (.sequence items)
  | entry {entries : List (String × HostValue)} {entry : String × HostValue} (among : entry ∈ entries)
      (inside : Strays entry.2) : Strays (.mapping entries)
  | field {fields : List (String × HostValue)} {field : String × HostValue} (among : field ∈ fields)
      (inside : Strays field.2) : Strays (.object fields)

mutual

/-- A value of the host as either of the two ways comes to see it. Entries and fields, no two of one name,
may come in another order on the other way. -/
inductive Mirrors : HostValue → HostValue → Prop
  | integer (type : IntegerType) {i : Int} (fits : fitsInt64 i = true) :
      Mirrors (.integer type i) (.integer type i)
  | double {x : Float} (finite : x.isFinite = true) : Mirrors (.double x) (.double x)
  | single {x : Float32} (finite : x.isFinite = true) : Mirrors (.single x) (.single x)
  | bool (b : Bool) : Mirrors (.bool b) (.bool b)
  | text (s : String) : Mirrors (.text s) (.text s)
  | unit : Mirrors .unit .unit
  | absent : Mirrors .absent .absent
  | present {inner other : HostValue} (same : Mirrors inner other) :
      Mirrors (.present inner) (.present other)
  | boxed {inner other : HostValue} (same : Mirrors inner other) : Mirrors (.boxed inner) (.boxed other)
  | sequence {items others : List HostValue} (each : MirrorsItems items others) :
      Mirrors (.sequence items) (.sequence others)
  | mapping {entries listed others : List (String × HostValue)} (nodup : (Fields.names entries).Nodup)
      (each : MirrorsFields entries listed) (order : listed.Perm others) :
      Mirrors (.mapping entries) (.mapping others)
  -- Not even by their marks do the names of two fields differ alone.
  | object {fields listed others : List (String × HostValue)} (declarable : Declarable fields)
      (nodup : (Fields.names (renamed fields)).Nodup) (each : MirrorsFields fields listed)
      (order : listed.Perm others) : Mirrors (.object fields) (.object others)
  | marker : Mirrors .marker .marker
  | emptyTuple : Mirrors .emptyTuple .emptyTuple
  | document {json : Json} (finite : json.settled.Finite) : Mirrors (.document json) (.document json)

inductive MirrorsItems : List HostValue → List HostValue → Prop
  | nil : MirrorsItems [] []
  | cons {item other : HostValue} {items others : List HostValue} (same : Mirrors item other)
      (each : MirrorsItems items others) : MirrorsItems (item :: items) (other :: others)

inductive MirrorsFields : List (String × HostValue) → List (String × HostValue) → Prop
  | nil : MirrorsFields [] []
  | cons (name : String) {content other : HostValue} {fields others : List (String × HostValue)}
      (same : Mirrors content other) (each : MirrorsFields fields others) :
      MirrorsFields ((name, content) :: fields) ((name, other) :: others)

end

theorem hollow_present {inner : HostValue} : Hollow (.present inner) ↔ Hollow inner :=
  ⟨fun (.present inside) => inside, .present⟩

theorem hollow_boxed {inner : HostValue} : Hollow (.boxed inner) ↔ Hollow inner :=
  ⟨fun (.boxed inside) => inside, .boxed⟩

theorem hollow_sequence {items : List HostValue} :
    Hollow (.sequence items) ↔ ∃ item ∈ items, Hollow item :=
  ⟨fun (.item among inside) => ⟨_, among, inside⟩, fun ⟨_, among, inside⟩ => .item among inside⟩

theorem hollow_mapping {entries : List (String × HostValue)} :
    Hollow (.mapping entries) ↔ ∃ entry ∈ entries, Hollow entry.2 :=
  ⟨fun (.entry among inside) => ⟨_, among, inside⟩, fun ⟨_, among, inside⟩ => .entry among inside⟩

theorem hollow_object {fields : List (String × HostValue)} :
    Hollow (.object fields) ↔ ∃ field ∈ fields, Hollow field.2 :=
  ⟨fun (.field among inside) => ⟨_, among, inside⟩, fun ⟨_, among, inside⟩ => .field among inside⟩

theorem hollow_document {json : Json} : Hollow (.document json) ↔ Json.Within .null json.settled :=
  ⟨fun (.document inside) => inside, .document⟩

theorem strays_present {inner : HostValue} : Strays (.present inner) ↔ Strays inner :=
  ⟨fun (.present inside) => inside, .present⟩

theorem strays_boxed {inner : HostValue} : Strays (.boxed inner) ↔ Strays inner :=
  ⟨fun (.boxed inside) => inside, .boxed⟩

theorem strays_sequence {items : List HostValue} :
    Strays (.sequence items) ↔ ∃ item ∈ items, Strays item :=
  ⟨fun (.item among inside) => ⟨_, among, inside⟩, fun ⟨_, among, inside⟩ => .item among inside⟩

theorem strays_mapping {entries : List (String × HostValue)} :
    Strays (.mapping entries) ↔ ∃ entry ∈ entries, Strays entry.2 :=
  ⟨fun (.entry among inside) => ⟨_, among, inside⟩, fun ⟨_, among, inside⟩ => .entry among inside⟩

theorem strays_object {fields : List (String × HostValue)} : Strays (.object fields) ↔
    (∃ field ∈ fields, Strays field.2) ∨ ∃ field ∈ fields, writtenName field.1 ≠ field.1 := by
  constructor
  · rintro (_ | _ | ⟨among, other⟩ | _ | _ | _ | _ | ⟨among, inside⟩)
    · exact .inr ⟨_, among, other⟩
    · exact .inl ⟨_, among, inside⟩
  · rintro (⟨field, among, inside⟩ | ⟨field, among, other⟩)
    · exact .field among inside
    · exact .renamed among other

theorem marked_of_renamed {name : String} (other : writtenName name ≠ name) : '#' ∈ name.toList := by
  unfold writtenName at other
  split at other
  · rename_i plain spelled
    simp [spelled]
  · exact absurd rfl other

section

variable {α : Type} {fields : List (String × α)}

theorem names_renamed (fields : List (String × α)) :
    Fields.names (renamed fields) = (Fields.names fields).map writtenName := by
  simp [renamed, Fields.names]

theorem nodup_of_renamed (nodup : (Fields.names (renamed fields)).Nodup) : (Fields.names fields).Nodup := by
  rw [names_renamed] at nodup
  exact nodup.of_map writtenName

theorem nodup_renamed {β : Type} {written : List (String × β)}
    (names : Fields.names written = Fields.names fields) (nodup : (Fields.names (renamed fields)).Nodup) :
    (Fields.names (renamed written)).Nodup := by
  rwa [names_renamed, names, ← names_renamed]

theorem renamed_eq (plain : ∀ field ∈ fields, writtenName field.1 = field.1) : renamed fields = fields := by
  unfold renamed
  conv => rhs; rw [← List.map_id fields]
  refine List.map_congr_left fun field among => ?_
  rw [plain field among]
  rfl

end

theorem fieldsToValues_renamed (written : List (String × Json)) :
    Json.fieldsToValues (Json.settledFields (renamed written)) =
      (Json.fieldsToValues (Json.settledFields written)).map renamed := by
  induction written with
  | nil => rfl
  | cons field rest ih =>
      simp only [renamed, List.map_cons, Json.settledFields, Json.fieldsToValues] at ih ⊢
      rw [ih]
      cases field.2.settled.toValue with
      | error fault => rfl
      | ok v => cases Json.fieldsToValues (Json.settledFields rest) <;> rfl

theorem fieldsToJson_ok {fields : List (String × HostValue)} {written : List (String × Json)} :
    fieldsToJson fields = .ok written ↔
      Fields.Related (fun content json => content.toJson = .ok json) fields written :=
  Fields.convert_ok fieldsToJson rfl fun _ _ _ => rfl

theorem names_of_fieldsToValues {fields : List (String × HostValue)} {values : List (String × Value)}
    (given : fieldsToValues fields = .ok values) : Fields.names values = Fields.names fields :=
  ((Fields.convert_ok fieldsToValues rfl fun _ _ _ => rfl).mp given).names.symm

def Meets (host mirror : HostValue) : Prop :=
  ∃ json, mirror.toJson = .ok json ∧ Concur host.Hollow host.Strays host.toValue json.settled.toValue

def ItemsMeet (items others : List HostValue) : Prop :=
  ∃ list, itemsToJson others = .ok list ∧
    Concur (∃ item ∈ items, Hollow item) (∃ item ∈ items, Strays item) (itemsToValues items)
      (Json.itemsToValues (Json.settledItems list))

def FieldsMeet (fields others : List (String × HostValue)) : Prop :=
  ∃ written, fieldsToJson others = .ok written ∧ Fields.names written = Fields.names fields ∧
    Concur (∃ field ∈ fields, Hollow field.2) (∃ field ∈ fields, Strays field.2) (fieldsToValues fields)
      (Json.fieldsToValues (Json.settledFields written))

theorem meets_integer (type : IntegerType) {i : Int} (fits : fitsInt64 i = true) :
    Meets (.integer type i) (.integer type i) := by
  have written : (HostValue.integer type i).toJson = .ok (.ofInt i) := by
    simp [toJson, integerToJson, fits]
  refine ⟨_, written, ?_⟩
  have direct : (HostValue.integer type i).toValue = .ok (.int (Int64.ofInt i)) := by
    simp [toValue, integerToValue, fits]
  have back : (Json.ofInt i).settled.toValue = .ok (.int (Int64.ofInt i)) := by
    simp [Json.ofInt, Json.settled, Json.toValue, JsonNumber.toValue, fits]
  rw [direct, back]
  exact .same nofun nofun _

theorem meets_double {host : HostValue} {x : Float} (finite : x.isFinite = true)
    (direct : host.toValue = .ok (.double x)) (written : host.toJson = .ok (.number (.double x)))
    (full : ¬ host.Hollow) (calm : ¬ host.Strays) : Meets host host := by
  refine ⟨_, written, ?_⟩
  have back : (Json.number (.double x)).settled.toValue = .ok (.double x) := if_pos finite
  rw [direct, back]
  exact .same full calm _

theorem ItemsMeet.cons {item other : HostValue} {items others : List HostValue} (same : Meets item other)
    (each : ItemsMeet items others) : ItemsMeet (item :: items) (other :: others) := by
  obtain ⟨json, written, first⟩ := same
  obtain ⟨list, listed, rest⟩ := each
  refine ⟨json :: list, ?_, ?_⟩
  · rw [itemsToJson, written, listed]
    rfl
  · rw [itemsToValues, Json.settledItems, Json.itemsToValues]
    exact (first.both rest fun _ _ _ _ => List.cons.inj).of_iff (by simp) (by simp)

theorem FieldsMeet.cons (name : String) {content other : HostValue} {fields others : List (String × HostValue)}
    (same : Meets content other) (each : FieldsMeet fields others) :
    FieldsMeet ((name, content) :: fields) ((name, other) :: others) := by
  obtain ⟨json, written, first⟩ := same
  obtain ⟨behind, listed, names, rest⟩ := each
  refine ⟨(name, json) :: behind, ?_, congrArg (name :: ·) names, ?_⟩
  · rw [fieldsToJson, written, listed]
    rfl
  · rw [fieldsToValues, Json.settledFields, Json.fieldsToValues]
    exact (first.both rest (Json.cons_field_injective name)).of_iff (by simp) (by simp)

section

variable {fields listed others : List (String × HostValue)}

theorem FieldsMeet.shuffled (each : FieldsMeet fields listed) (order : listed.Perm others) :
    ∃ written written', fieldsToJson others = .ok written' ∧ written.Perm written' ∧
      Fields.names written = Fields.names fields ∧
      Concur (∃ field ∈ fields, Hollow field.2) (∃ field ∈ fields, Strays field.2) (fieldsToValues fields)
        (Json.fieldsToValues (Json.settledFields written)) := by
  obtain ⟨written, done, names, concur⟩ := each
  obtain ⟨written', related, order'⟩ := List.perm_comp_forall₂ order.symm (fieldsToJson_ok.mp done)
  exact ⟨written, written', fieldsToJson_ok.mpr related, order'.symm, names, concur⟩

theorem record_concur {missing strays : Prop} {written : List (String × Json)}
    (names : Fields.names written = Fields.names fields) (nodup : (Fields.names fields).Nodup)
    (concur : Concur missing strays (fieldsToValues fields)
      (Json.fieldsToValues (Json.settledFields written))) :
    Concur missing strays ((fieldsToValues fields).map .record) (Json.record written).settled.toValue := by
  generalize direct : fieldsToValues fields = x at concur
  generalize converted : Json.fieldsToValues (Json.settledFields written) = y at concur
  have nodup' : (Fields.names written).Nodup := names ▸ nodup
  cases concur with
  | fail lacks fault other =>
      obtain ⟨third, failed⟩ := Json.toValue_record_error nodup' converted
      rw [failed]
      exact .fail lacks fault third
  | @give full values _ agree =>
      refine .give full (Iff.trans ?_ agree)
      rw [Json.toValue_record_ok nodup', converted]
      constructor
      · rintro ⟨others, rfl, same⟩
        have named : Fields.names values = Fields.names others := by
          rw [names_of_fieldsToValues direct, ← names, ← Json.names_settledFields]
          exact (Json.fieldsToValues_ok.mp converted).names
        have equal := Fields.eq_of_ofList (Value.object.inj same) named
          (names_of_fieldsToValues direct ▸ nodup)
        rw [equal]
      · rintro rfl
        exact ⟨values, rfl, rfl⟩

theorem not_renamed_mem {field : String × HostValue} (declarable : Declarable fields)
    (other : writtenName field.1 ≠ field.1) : field.1 ∉ (Fields.names fields).map writtenName := by
  intro among
  obtain ⟨name, named, same⟩ := List.mem_map.mp among
  exact declarable name named (same ▸ marked_of_renamed other)

-- A marked name is among those of the direct record, and in a document no name is marked.
theorem renamed_apart {written : List (String × Json)} {values : List (String × Value)}
    {field : String × HostValue} (names : Fields.names written = Fields.names fields)
    (named : Fields.names values = Fields.names fields) (declarable : Declarable fields)
    (nodup : (Fields.names (renamed fields)).Nodup) (among : field ∈ fields)
    (other : writtenName field.1 ≠ field.1) :
    (Json.record (renamed written)).settled.toValue ≠ .ok (.record values) := by
  intro given
  have once : (Fields.names values).Nodup := named ▸ nodup_of_renamed nodup
  have nodup' : (Fields.names (renamed written)).Nodup := nodup_renamed names nodup
  obtain ⟨others, back, same⟩ := (Json.toValue_record_ok nodup').mp given
  have behind : Fields.names others = (Fields.names fields).map writtenName := by
    rw [← names, ← names_renamed, ← Json.names_settledFields]
    exact (Json.fieldsToValues_ok.mp back).names.symm
  have inside : field.1 ∈ Fields.names (Fields.ofList values) := by
    rw [Fields.mem_names_ofList once, named]
    exact List.mem_map_of_mem among
  rw [Value.object.inj same, Fields.mem_names_ofList (by rwa [behind, ← names_renamed]), behind] at inside
  exact not_renamed_mem declarable other inside

theorem object_concur {missing strays : Prop} {written : List (String × Json)}
    (names : Fields.names written = Fields.names fields) (declarable : Declarable fields)
    (nodup : (Fields.names (renamed fields)).Nodup)
    (concur : Concur missing strays (fieldsToValues fields)
      (Json.fieldsToValues (Json.settledFields written))) :
    Concur missing (strays ∨ ∃ field ∈ fields, writtenName field.1 ≠ field.1)
      ((fieldsToValues fields).map .record) (Json.record (renamed written)).settled.toValue := by
  have once := nodup_of_renamed nodup
  by_cases plain : ∀ field ∈ fields, writtenName field.1 = field.1
  · have kept : renamed written = written := by
      refine renamed_eq fun field among => ?_
      have named : field.1 ∈ Fields.names fields := names ▸ List.mem_map_of_mem among
      obtain ⟨declared, present, same⟩ := List.mem_map.mp named
      rw [← same, plain declared present]
    rw [kept]
    refine (record_concur names once concur).of_iff Iff.rfl (Iff.symm (or_iff_left ?_))
    rintro ⟨field, among, other⟩
    exact other (plain field among)
  · obtain ⟨field, among, other⟩ : ∃ field ∈ fields, writtenName field.1 ≠ field.1 := by simpa using plain
    generalize direct : fieldsToValues fields = x at concur
    generalize converted : Json.fieldsToValues (Json.settledFields written) = y at concur
    cases concur with
    | fail lacks fault third =>
        have failed := (fieldsToValues_renamed written).trans (congrArg (Except.map renamed) converted)
        obtain ⟨fourth, refused⟩ := Json.toValue_record_error (nodup_renamed names nodup) failed
        rw [refused]
        exact .fail lacks fault fourth
    | @give full values _ agree =>
        have apart := renamed_apart names (names_of_fieldsToValues direct) declarable nodup among other
        exact .give full ⟨fun given => absurd given apart, fun none => absurd (.inr ⟨field, among, other⟩) none⟩

end

mutual

theorem Mirrors.meets {host mirror : HostValue} : host.Mirrors mirror → Meets host mirror
  | .integer type fits => meets_integer type fits
  | .double finite => meets_double finite rfl rfl nofun nofun
  | .single finite => meets_double (Double.isFinite_ofSingle finite) rfl rfl nofun nofun
  | .bool b => ⟨.bool b, rfl, .same nofun nofun (Value.bool b)⟩
  | .text s => ⟨.text s, rfl, .same nofun nofun (Value.string s)⟩
  | .unit => ⟨.null, rfl, .fail .unit .unit .null⟩
  | .absent => ⟨.null, rfl, .fail .absent .absent .null⟩
  | .marker => ⟨.null, rfl, .give nofun ⟨nofun, fun calm => absurd .marker calm⟩⟩
  | .emptyTuple => ⟨.list [], rfl, .give nofun ⟨nofun, fun calm => absurd .emptyTuple calm⟩⟩
  | .present same => by
      obtain ⟨json, written, inner⟩ := same.meets
      exact ⟨json, written, inner.of_iff hollow_present.symm strays_present.symm⟩
  | .boxed same => by
      obtain ⟨json, written, inner⟩ := same.meets
      exact ⟨json, written, inner.of_iff hollow_boxed.symm strays_boxed.symm⟩
  | .sequence each => by
      obtain ⟨list, written, both⟩ := each.meet
      have values := both.map fun _ _ => Value.array.inj
      exact ⟨.list list, congrArg (Except.map Json.list) written,
        values.of_iff hollow_sequence.symm strays_sequence.symm⟩
  | .mapping nodup each order => by
      obtain ⟨written, written', done, moved, names, both⟩ := each.meet.shuffled order
      have record := record_concur names nodup both
      rw [Json.settled_record_of_perm (names ▸ nodup) moved] at record
      exact ⟨.record written', congrArg (Except.map Json.record) done,
        record.of_iff hollow_mapping.symm strays_mapping.symm⟩
  | .object declarable nodup each order => by
      obtain ⟨written, written', done, moved, names, both⟩ := each.meet.shuffled order
      have record := object_concur names declarable nodup both
      rw [Json.settled_record_of_perm (nodup_renamed names nodup) (moved.map _)] at record
      exact ⟨.record (renamed written'), congrArg (Except.map fun fields => Json.record (renamed fields)) done,
        record.of_iff hollow_object.symm strays_object.symm⟩
  | .document finite =>
      ⟨_, rfl, (Json.toValue_concur _ finite).of_iff hollow_document.symm ⟨nofun, nofun⟩⟩

theorem MirrorsItems.meet {items others : List HostValue} : MirrorsItems items others → ItemsMeet items others
  | .nil => ⟨[], rfl, .same (by simp) (by simp) []⟩
  | .cons same each => .cons same.meets each.meet

theorem MirrorsFields.meet {fields others : List (String × HostValue)} :
    MirrorsFields fields others → FieldsMeet fields others
  | .nil => ⟨[], rfl, rfl, .same (by simp) (by simp) []⟩
  | .cons name same each => .cons name same.meets each.meet

end

end HostValue

/-- Both ways fail if something is missing inside. If nothing is, the direct one gives a value, and the other
the same one just if documents show all structures inside under their declared names. -/
theorem direct_and_reflected_concur {host mirror : HostValue} (same : host.Mirrors mirror) :
    (host.Hollow ∧ (∃ fault, host.toValue = .error fault) ∧ ∃ fault, mirror.reflect = .error fault) ∨
      (¬ host.Hollow ∧ ∃ v, host.toValue = .ok v ∧ (mirror.reflect = .ok v ↔ ¬ host.Strays)) := by
  obtain ⟨json, written, outcome⟩ := same.meets
  have reflected : mirror.reflect = json.settled.toValue := by
    rw [HostValue.reflect, written]
    rfl
  rw [reflected]
  generalize host.toValue = direct at outcome
  generalize json.settled.toValue = back at outcome
  cases outcome with
  | fail lacks fault other => exact .inl ⟨lacks, ⟨fault, rfl⟩, ⟨other, rfl⟩⟩
  | @give full v _ agree => exact .inr ⟨full, v, rfl, agree⟩

theorem swapped_entries_bridged :
    (∃ v, HostValue.toValue (.mapping [("on", .bool true), ("half", .boxed (.double 0.5))]) = .ok v ∧
      HostValue.reflect (.mapping [("half", .boxed (.double 0.5)), ("on", .bool true)]) = .ok v) ∧
    (∃ fault, HostValue.reflect (.object [("tags", .sequence [.text "a", .absent])]) = .error fault) ∧
    ∃ v, HostValue.toValue (.object [("r#in", .bool true)]) = .ok v ∧
      HostValue.reflect (.object [("r#in", .bool true)]) ≠ .ok v := by
  refine ⟨?_, ?_, ?_⟩
  · have same : HostValue.Mirrors (.mapping [("on", .bool true), ("half", .boxed (.double 0.5))])
        (.mapping [("half", .boxed (.double 0.5)), ("on", .bool true)]) :=
      .mapping (by decide) (.cons _ (.bool true) (.cons _ (.boxed (.double (by decide +kernel))) .nil))
        (.swap _ _ [])
    have calm : ¬ HostValue.Strays (.mapping [("on", .bool true), ("half", .boxed (.double 0.5))]) := by
      rw [HostValue.strays_mapping]
      rintro ⟨entry, among, inside⟩
      simp only [List.mem_cons, List.not_mem_nil, or_false] at among
      obtain rfl | rfl := among
      · cases inside
      · cases HostValue.strays_boxed.mp inside
    rcases direct_and_reflected_concur same with ⟨-, ⟨fault, failed⟩, -⟩ | ⟨-, v, given, agree⟩
    · cases failed
    · exact ⟨v, given, agree.mpr calm⟩
  · have same : HostValue.Mirrors (.object [("tags", .sequence [.text "a", .absent])])
        (.object [("tags", .sequence [.text "a", .absent])]) :=
      .object (by decide) (by decide) (.cons _ (.sequence (.cons (.text "a") (.cons .absent .nil))) .nil)
        (.refl _)
    rcases direct_and_reflected_concur same with ⟨-, -, failed⟩ | ⟨-, v, given, -⟩
    · exact failed
    · cases given
  · have same : HostValue.Mirrors (.object [("r#in", .bool true)]) (.object [("r#in", .bool true)]) :=
      .object (by decide) (by decide) (.cons _ (.bool true) .nil) (.refl _)
    have strays : HostValue.Strays (.object [("r#in", .bool true)]) := .renamed List.mem_cons_self (by decide)
    rcases direct_and_reflected_concur same with ⟨-, ⟨fault, failed⟩, -⟩ | ⟨-, v, given, agree⟩
    · cases failed
    · exact ⟨v, given, fun equal => agree.mp equal strays⟩

-- A structure without braces is an object the one way and refused the other; a raw name keeps its mark the
-- one way only; and a null that a later field of its name replaces keeps neither way from giving a value.
theorem structures_bridged_apart :
    let raw : HostValue := .object [("r#in", .bool true)]
    let document : Json := .record [("a", .null), ("a", .ofNat 1)]
    (HostValue.Mirrors .marker .marker ∧ ¬ HostValue.marker.Hollow ∧
      HostValue.marker.toValue = .ok (.object []) ∧ HostValue.marker.reflect = .error .null) ∧
    (raw.Mirrors raw ∧ ¬ raw.Hollow ∧ raw.toValue = .ok (.object [("r#in", .bool true)]) ∧
      raw.reflect = .ok (.object [("in", .bool true)])) ∧
    Json.Within .null document ∧ HostValue.toValue (.document document) = .ok (.object [("a", .int 1)]) ∧
      HostValue.reflect (.document document) = .ok (.object [("a", .int 1)]) := by
  intro raw document
  have same : raw.Mirrors raw := .object (by decide) (by decide) (.cons _ (.bool true) .nil) (.refl _)
  have full : ¬ raw.Hollow := by
    rw [HostValue.hollow_object]
    rintro ⟨field, among, inside⟩
    cases List.mem_singleton.mp among
    cases inside
  exact ⟨⟨.marker, nofun, rfl, rfl⟩, ⟨same, full, rfl, rfl⟩, .field List.mem_cons_self .self, rfl, rfl⟩

end PredicateLang
