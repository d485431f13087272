import Polling.Document.Configuration
import Polling.Proofs.Address.RoundTrip
import Polling.Proofs.Json.RoundTrip

namespace Polling

namespace Json

/-- A record of declared fields, each written once, gives its fields. -/
theorem fields?_record {names : List String} {members : Fields}
    (hn : (members.map Prod.fst).Nodup) (hd : ∀ m ∈ members, m.1 ∈ names) :
    fields? names (record members) = some members := by
  have named (ms : Fields) : (ms.map fun m => (some m.1, m.2)).mapM
      (fun m : Option String × Json => m.1.map (·, m.2)) = some ms := by
    induction ms with
    | nil => rfl
    | cons m ms ih => simp [ih]
  have given : members.filter (·.1 ∈ names) = members :=
    List.filter_eq_self.2 fun m hm => decide_eq_true (hd m hm)
  rw [record, fields?, declared?, named]
  change (if ((members.filter (·.1 ∈ names)).map Prod.fst).Nodup then
    some (members.filter (·.1 ∈ names)) else none) = some members
  rw [given, if_pos hn]

theorem list?_map {α : Type} {read : Json → Option α} {write : α → Json}
    (h : ∀ a, read (write a) = some a) (as : List α) :
    list? read (.array (as.map write)) = some as := by
  change (as.map write).mapM read = some as
  induction as with
  | nil => rfl
  | cons a as ih => simp [h, ih]

theorem natBelow?_int {bound n : Nat} (h : n < bound) : natBelow? bound (.int n) = some n := by
  have range : 0 ≤ (n : Int) ∧ (n : Int) < bound := by omega
  rw [natBelow?, if_pos range, Int.toNat_natCast]

@[simp] theorem natBelow?_size32 (n : UInt32) :
    natBelow? UInt32.size (.int n.toNat) = some n.toNat :=
  natBelow?_int n.toNat_lt

@[simp] theorem natBelow?_size64 (n : UInt64) :
    natBelow? UInt64.size (.int n.toNat) = some n.toNat :=
  natBelow?_int n.toNat_lt

@[simp] theorem text?_text (s : String) : text? (text s) = some s := rfl

@[simp] theorem bool?_bool (b : Bool) : bool? (.bool b) = some b := rfl

@[simp] theorem nullable?_text (s : String) : nullable? text? (text s) = some (some s) := rfl

@[simp] theorem list?_text (ts : List String) : list? text? (.array (ts.map text)) = some ts :=
  list?_map text?_text ts

namespace Fields

variable {α : Type} {fields : Fields} {name other : String} {v : Json} {read : Json → Option α}
  {default : α}

@[simp] theorem required_self : required ((name, v) :: fields) name read = read v := by
  simp [required]

@[simp] theorem required_cons (h : name ≠ other) :
    required ((other, v) :: fields) name read = required fields name read := by
  simp [required, List.lookup_cons, beq_false_of_ne h]

@[simp] theorem withDefault_nil : withDefault [] name default read = some default := rfl

@[simp] theorem withDefault_self :
    withDefault ((name, v) :: fields) name default read = read v := by
  simp [withDefault]

@[simp] theorem withDefault_cons (h : name ≠ other) :
    withDefault ((other, v) :: fields) name default read =
      withDefault fields name default read := by
  simp [withDefault, List.lookup_cons, beq_false_of_ne h]

/-- A list that was left out because it is empty is read back as empty. -/
theorem withDefault_listField {write : α → Json} (h : ∀ a, read (write a) = some a)
    (as : List α) :
    withDefault (listField name (as.map write)) name [] (list? read) = some as := by
  cases as with
  | nil => rfl
  | cons a as => exact withDefault_self.trans (list?_map h (a :: as))

@[simp] theorem withDefault_listField_of_ne {items : List Json} (h : name ≠ other) :
    withDefault (listField other items) name default read = some default := by
  cases items with
  | nil => rfl
  | cons item items => exact (withDefault_cons h).trans withDefault_nil

end Fields

end Json

open Json

@[simp] theorem Address.ofJson?_toJson (a : Address) : ofJson? a.toJson = some a :=
  Address.ofString?_toString a

@[simp] theorem AddressRange.ofJson?_toJson (r : AddressRange) : ofJson? r.toJson = some r := by
  rw [ofJson?, toJson, fields?_record (by simp) (by simp)]
  simp

theorem Parameter.ofJson?_toJson (p : Parameter) : ofJson? p.toJson = some p := by
  rw [ofJson?, toJson, fields?_record (by simp) (by simp)]
  simp

/-- A missing status and missing parameters are read back as none. -/
theorem Service.ofJson?_toJson (s : Service) : ofJson? s.toJson = some s := by
  obtain ⟨name, status, interval, parameters⟩ := s
  rw [ofJson?, toJson, fields?_record]
  · -- With a step left to the kernel as a conversion, the kernel would unfold the bounds of numbers.
    cases status <;>
      simp -implicitDefEqProofs [optionalField,
        Fields.withDefault_listField Parameter.ofJson?_toJson]
  · cases status <;> cases parameters <;> simp [optionalField, listField]
  · cases status <;> cases parameters <;> simp [optionalField, listField]

@[simp] theorem Archive.ofJson?_toJson (a : Archive) : ofJson? a.toJson = some a := by
  rw [ofJson?, toJson, fields?_record (by simp) (by simp)]
  simp -implicitDefEqProofs

theorem Package.ofJson?_toJson (p : Package) : ofJson? p.toJson = some p := by
  rw [ofJson?, toJson, fields?_record (by simp) (by simp)]
  simp -implicitDefEqProofs [list?_map Address.ofJson?_toJson,
    list?_map AddressRange.ofJson?_toJson, list?_map Service.ofJson?_toJson]

theorem Monitor.ofJson?_toJson (m : Monitor) : ofJson? m.toJson = some m := by
  rw [ofJson?, toJson, fields?_record (by simp) (by simp)]
  simp

/-- A missing critical service is read back as none, unlike missing node-outage settings. -/
@[simp] theorem NodeOutage.ofJson?_toJson (o : NodeOutage) : ofJson? o.toJson = some o := by
  obtain ⟨status, critical, pollAll⟩ := o
  rw [ofJson?, toJson, fields?_record]
  · cases critical <;> simp [optionalField]
  · cases critical <;> simp [optionalField]
  · cases critical <;> simp [optionalField]

namespace Configuration

theorem ofJson?_toJson (c : Configuration) : ofJson? c.toJson = some c := by
  rw [ofJson?, toJson, fields?_record (by simp) (by simp)]
  simp -implicitDefEqProofs [list?_map Package.ofJson?_toJson, list?_map Monitor.ofJson?_toJson]

/-- A configuration is read back from its JSON, in whatever layout that was written. -/
theorem parse?_write (l : Layout) (c : Configuration) :
    parse? (String.ofList (c.toJson.write l)) = some c := by
  have read : ofString? (String.ofList (c.toJson.write l)) = some c.toJson := by
    rw [ofString?, String.toList_ofList, ofChars?_write]
  rw [parse?, read, Option.bind_eq_bind, Option.bind_some, ofJson?_toJson]

/-- A configuration that is stored is read back as it was. -/
theorem parse?_render (c : Configuration) : parse? c.render = some c :=
  parse?_write (.lines 0) c

end Configuration

end Polling
