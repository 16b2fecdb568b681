import Mathlib.Data.List.Forall2
import QualifierConstraints.Json.Codec
import QualifierConstraints.Proofs.JsonReading

/-!
# What a tree represents

Which JSON trees stand for which values, said without a reader. A structure stands in a tree by the
names of its fields or in their order, and at every level either form will do. Every reader accepts
exactly the trees that represent a value, and gives that value; what a writer makes of a value
represents it, so it is read back.
-/

set_option autoImplicit false

namespace QualifierConstraints

namespace Json

/-- The fields of a form have these values: as members of an object, which may have further ones,
or as the items of an array, which may not. -/
inductive HasFields (f : Form) (values : List Json) : Json → Prop where
  | named {members : List (String × Json)}
      (h : List.Forall₂ (fun key j => members.lookup key = some j) f.fields values) :
      HasFields f values (.object members)
  | inOrder (h : values.length = f.fields.length) : HasFields f values (.array values)

end Json

def Qualifier.RepresentedBy (q : Qualifier) (j : Json) : Prop :=
  j.HasFields .qualifier [.text q.name, .array (q.arguments.map .text)]

def Hierarchy.RepresentedBy (h : Hierarchy) (j : Json) : Prop := h.top.RepresentedBy j

def Target.RepresentedBy (t : Target) (j : Json) : Prop :=
  j.HasFields .target [.text t.name, .text t.binding]

inductive AnnotatedType.RepresentedBy : AnnotatedType → Json → Prop where
  | mk {name : String} {arguments : List AnnotatedType} {qualifiers : List Qualifier}
      {as qs : List Json} {j : Json}
      (hfields : j.HasFields .type [.text name, .array as, .array qs])
      (harguments : List.Forall₂ RepresentedBy arguments as)
      (hqualifiers : List.Forall₂ Qualifier.RepresentedBy qualifiers qs) :
      RepresentedBy ⟨name, arguments, qualifiers⟩ j

/-- The one field may be left out, and then there is no validation. -/
inductive Settings.RepresentedBy : Settings → Json → Prop where
  | given {validate : Bool} {j : Json} (h : j.HasFields .settings [.bool validate]) :
      RepresentedBy ⟨validate⟩ j
  | noMember {members : List (String × Json)}
      (h : members.lookup "validate-hierarchies" = none) : RepresentedBy ⟨false⟩ (.object members)
  | noItem : RepresentedBy ⟨false⟩ (.array [])

namespace Json

/-- The writer and the reader of a type agree with what trees represent. -/
structure Exact {α : Type} (write : α → Json) (read : Json → Except Misfit α)
    (RepresentedBy : α → Json → Prop) : Prop where
  read_eq_ok_iff : ∀ j a, read j = .ok a ↔ RepresentedBy a j
  read_eq_error_iff : ∀ j, (∃ misfit, read j = .error misfit) ↔ ∀ a, ¬ RepresentedBy a j
  unique : ∀ j a b, RepresentedBy a j → RepresentedBy b j → a = b
  representedBy_write : ∀ a, RepresentedBy a (write a)
  read_write : ∀ a, read (write a) = .ok a
  write_injective : Function.Injective write
  /-- The order of the members of an object makes no difference, not even to the reason for a
  refusal. -/
  read_of_perm : ∀ members members' : List (String × Json), (members.map Prod.fst).Nodup →
    members.Perm members' → read (.object members) = read (.object members')

variable {f : Form} {values : List Json}

theorem hasFields_object_iff {members : List (String × Json)} :
    HasFields f values (.object members) ↔
      List.Forall₂ (fun key j => members.lookup key = some j) f.fields values := by
  constructor
  · intro h
    cases h with
    | named h => exact h
  · exact .named

theorem hasFields_array_iff {items : List Json} :
    HasFields f values (.array items) ↔ items = values ∧ values.length = f.fields.length := by
  constructor
  · intro h
    cases h with
    | inOrder h => exact ⟨rfl, h⟩
  · rintro ⟨rfl, h⟩
    exact .inOrder h

/-- All the rest follows from what is accepted. -/
theorem Exact.of_read_eq_ok_iff {α : Type} {write : α → Json} {read : Json → Except Misfit α}
    {RepresentedBy : α → Json → Prop} (hread : ∀ j a, read j = .ok a ↔ RepresentedBy a j)
    (hwrite : ∀ a, RepresentedBy a (write a))
    (hperm : ∀ members members' : List (String × Json), (members.map Prod.fst).Nodup →
      members.Perm members' → read (.object members) = read (.object members')) :
    Exact write read RepresentedBy := by
  have hunique : ∀ j a b, RepresentedBy a j → RepresentedBy b j → a = b := by
    intro j a b ha hb
    exact Except.ok.inj (((hread j a).2 ha).symm.trans ((hread j b).2 hb))
  refine ⟨hread, fun j => ?_, hunique, hwrite, fun a => (hread _ a).2 (hwrite a), ?_, hperm⟩
  · simp only [← hread]
    cases read j <;> simp
  · intro a b hab
    exact hunique (write a) a b (hwrite a) (hab ▸ hwrite b)

end Json

namespace Qualifier

theorem ofJson_eq_ok_iff {j : Json} {q : Qualifier} : ofJson j = .ok q ↔ q.RepresentedBy j := by
  obtain ⟨name, arguments⟩ := q
  rw [RepresentedBy]
  cases j with
  | object members =>
    rw [Json.hasFields_object_iff]
    simp [ofJson, Form.fields, and_comm]
  | array items =>
    rw [Json.hasFields_array_iff]
    rcases items with _ | ⟨first, _ | ⟨second, rest⟩⟩
    · simp [ofJson]
    · simp [ofJson]
    · simp [ofJson, Form.fields]
  | null | bool | integer | float | text => exact iff_of_false nofun nofun

theorem representedBy_toJson (q : Qualifier) : q.RepresentedBy q.toJson :=
  .named (.cons rfl (.cons rfl .nil))

theorem exact_json : Json.Exact toJson ofJson RepresentedBy := by
  refine .of_read_eq_ok_iff (fun _ _ => ofJson_eq_ok_iff) representedBy_toJson ?_
  intro members members' hdistinct hperm
  simp only [ofJson, Json.readMember_eq_of_perm hdistinct hperm]

end Qualifier

namespace Hierarchy

theorem ofJson_eq_ok_iff {j : Json} {h : Hierarchy} : ofJson j = .ok h ↔ h.RepresentedBy j := by
  obtain ⟨top⟩ := h
  change Hierarchy.mk <$> Qualifier.ofJson j = .ok ⟨top⟩ ↔ top.RepresentedBy j
  simp [Qualifier.ofJson_eq_ok_iff]

theorem exact_json : Json.Exact toJson ofJson RepresentedBy := by
  refine .of_read_eq_ok_iff (fun _ _ => ofJson_eq_ok_iff) (fun h => h.top.representedBy_toJson) ?_
  intro members members' hdistinct hperm
  rw [ofJson, ofJson, Qualifier.exact_json.read_of_perm members members' hdistinct hperm]

end Hierarchy

namespace Target

theorem ofJson_eq_ok_iff {j : Json} {t : Target} : ofJson j = .ok t ↔ t.RepresentedBy j := by
  obtain ⟨name, binding⟩ := t
  rw [RepresentedBy]
  cases j with
  | object members =>
    rw [Json.hasFields_object_iff]
    simp [ofJson, Form.fields, and_comm]
  | array items =>
    rw [Json.hasFields_array_iff]
    rcases items with _ | ⟨first, _ | ⟨second, rest⟩⟩
    · simp [ofJson]
    · simp [ofJson]
    · simp [ofJson, Form.fields]
  | null | bool | integer | float | text => exact iff_of_false nofun nofun

theorem exact_json : Json.Exact toJson ofJson RepresentedBy := by
  refine .of_read_eq_ok_iff (fun _ _ => ofJson_eq_ok_iff)
    (fun t => .named (.cons rfl (.cons rfl .nil))) ?_
  intro members members' hdistinct hperm
  simp only [ofJson, Json.readMember_eq_of_perm hdistinct hperm]

end Target

namespace AnnotatedType

theorem ofJsonItems_eq_mapM (items : List Json) : ofJsonItems items = items.mapM ofJson := by
  induction items with
  | nil => rfl
  | cons j items ih => rw [ofJsonItems, ih, List.mapM_cons]

theorem ofJsonList_eq_readList (j : Json) : ofJsonList j = Json.readList ofJson j := by
  cases j with
  | array items => rw [ofJsonList, ofJsonItems_eq_mapM, Json.readList]
  | null | bool | integer | float | text | object => rfl

theorem argumentsMember_eq_readMember (members : List (String × Json)) :
    argumentsMember members = Json.readMember (Json.readList ofJson) "arguments" members := by
  rw [Json.readMember]
  induction members with
  | nil => rfl
  | cons m members ih =>
    obtain ⟨key, j⟩ := m
    rw [argumentsMember, ofJsonList_eq_readList, List.lookup_cons, ih]
    by_cases h : key = "arguments"
    · simp [h]
    · have hb : ("arguments" == key) = false := by simpa using Ne.symm h
      rw [if_neg h, hb]

/-- Induction over a type, with the arguments of a type as its parts. -/
theorem induction {motive : AnnotatedType → Prop}
    (mk : ∀ name arguments qualifiers, (∀ a ∈ arguments, motive a) →
      motive ⟨name, arguments, qualifiers⟩) : ∀ t, motive t
  | ⟨name, arguments, qualifiers⟩ => mk name arguments qualifiers fun a _ => induction mk a

theorem ofJson_object_eq_ok_iff {members : List (String × Json)} {t : AnnotatedType} :
    ofJson (.object members) = .ok t ↔
      members.lookup "name" = some (.text t.name) ∧
      (∃ as, members.lookup "arguments" = some (.array as) ∧
        List.Forall₂ (fun a item => ofJson item = .ok a) t.arguments as) ∧
      ∃ qs, members.lookup "qualifiers" = some (.array qs) ∧
        List.Forall₂ Qualifier.RepresentedBy t.qualifiers qs := by
  obtain ⟨name, arguments, qualifiers⟩ := t
  rw [and_left_comm]
  simp [ofJson, argumentsMember_eq_readMember, Json.readList_eq_ok_iff, Qualifier.ofJson_eq_ok_iff]

theorem ofJson_array_eq_ok_iff {items : List Json} {t : AnnotatedType} :
    ofJson (.array items) = .ok t ↔
      ∃ as qs, items = [.text t.name, .array as, .array qs] ∧
        List.Forall₂ (fun a item => ofJson item = .ok a) t.arguments as ∧
        List.Forall₂ Qualifier.RepresentedBy t.qualifiers qs := by
  obtain ⟨name, arguments, qualifiers⟩ := t
  rcases items with _ | ⟨first, _ | ⟨second, _ | ⟨third, rest⟩⟩⟩
  · simp [ofJson]
  · simp [ofJson]
  · simp [ofJson]
  · have hread : ofJson (.array (first :: second :: third :: rest)) =
          .ok ⟨name, arguments, qualifiers⟩ ↔
        first = .text name ∧
        (∃ as, second = .array as ∧
          List.Forall₂ (fun a item => ofJson item = .ok a) arguments as) ∧
        (∃ qs, third = .array qs ∧ List.Forall₂ Qualifier.RepresentedBy qualifiers qs) ∧
        rest = [] := by
      simp [ofJson, ofJsonList_eq_readList, Json.readList_eq_ok_iff, Qualifier.ofJson_eq_ok_iff]
    rw [hread]
    constructor
    · rintro ⟨rfl, ⟨as, rfl, harguments⟩, ⟨qs, rfl, hqualifiers⟩, rfl⟩
      exact ⟨as, qs, rfl, harguments, hqualifiers⟩
    · rintro ⟨as, qs, hitems, harguments, hqualifiers⟩
      cases hitems
      exact ⟨rfl, ⟨as, rfl, harguments⟩, ⟨qs, rfl, hqualifiers⟩, rfl⟩

/-- The outermost level of a type is read off its fields, whichever form they have. -/
theorem ofJson_eq_ok_iff_hasFields {j : Json} {t : AnnotatedType} : ofJson j = .ok t ↔
    ∃ as qs, j.HasFields .type [.text t.name, .array as, .array qs] ∧
      List.Forall₂ (fun a item => ofJson item = .ok a) t.arguments as ∧
      List.Forall₂ Qualifier.RepresentedBy t.qualifiers qs := by
  cases j with
  | object members =>
    have hfields : ∀ as qs,
        Json.HasFields .type [.text t.name, .array as, .array qs] (.object members) ↔
          members.lookup "name" = some (.text t.name) ∧
          members.lookup "arguments" = some (.array as) ∧
          members.lookup "qualifiers" = some (.array qs) := by
      simp [Json.hasFields_object_iff, Form.fields]
    simp only [ofJson_object_eq_ok_iff, hfields]
    constructor
    · rintro ⟨hname, ⟨as, has, harguments⟩, qs, hqs, hqualifiers⟩
      exact ⟨as, qs, ⟨hname, has, hqs⟩, harguments, hqualifiers⟩
    · rintro ⟨as, qs, ⟨hname, has, hqs⟩, harguments, hqualifiers⟩
      exact ⟨hname, ⟨as, has, harguments⟩, qs, hqs, hqualifiers⟩
  | array items =>
    have hfields : ∀ as qs,
        Json.HasFields .type [.text t.name, .array as, .array qs] (.array items) ↔
          items = [.text t.name, .array as, .array qs] := by
      simp [Json.hasFields_array_iff, Form.fields]
    simp only [ofJson_array_eq_ok_iff, hfields]
  | null | bool | integer | float | text =>
    refine iff_of_false nofun ?_
    rintro ⟨as, qs, hfields, -⟩
    cases hfields

theorem ofJson_eq_ok_iff {j : Json} {t : AnnotatedType} : ofJson j = .ok t ↔ t.RepresentedBy j := by
  induction t using AnnotatedType.induction generalizing j with
  | mk name arguments qualifiers ih =>
    have harguments : ∀ as, List.Forall₂ (fun a item => ofJson item = .ok a) arguments as ↔
        List.Forall₂ RepresentedBy arguments as := by
      intro as
      simp only [List.forall₂_iff_zip]
      refine and_congr_right fun _ => ⟨fun h a item hitem => ?_, fun h a item hitem => ?_⟩
      · exact (ih a (List.of_mem_zip hitem).1).1 (h hitem)
      · exact (ih a (List.of_mem_zip hitem).1).2 (h hitem)
    rw [ofJson_eq_ok_iff_hasFields]
    simp only [harguments]
    constructor
    · rintro ⟨as, qs, hfields, harguments, hqualifiers⟩
      exact ⟨hfields, harguments, hqualifiers⟩
    · rintro ⟨hfields, harguments, hqualifiers⟩
      exact ⟨_, _, hfields, harguments, hqualifiers⟩

theorem toJsonAll_eq_map (ts : List AnnotatedType) : toJsonAll ts = ts.map toJson := by
  induction ts with
  | nil => rfl
  | cons t ts ih => rw [toJsonAll, ih, List.map_cons]

theorem representedBy_toJson (t : AnnotatedType) : t.RepresentedBy t.toJson := by
  induction t using AnnotatedType.induction with
  | mk name arguments qualifiers ih =>
    rw [toJson, toJsonAll_eq_map]
    refine ⟨.named (.cons rfl (.cons rfl (.cons rfl .nil))), ?_, ?_⟩
    · rw [List.forall₂_map_right_iff, List.forall₂_same]
      exact ih
    · rw [List.forall₂_map_right_iff, List.forall₂_same]
      exact fun q _ => q.representedBy_toJson

theorem exact_json : Json.Exact toJson ofJson RepresentedBy := by
  refine .of_read_eq_ok_iff (fun _ _ => ofJson_eq_ok_iff) representedBy_toJson ?_
  intro members members' hdistinct hperm
  simp only [ofJson, argumentsMember_eq_readMember, Json.readMember_eq_of_perm hdistinct hperm]

end AnnotatedType

namespace Settings

theorem representedBy_object_iff {s : Settings} {members : List (String × Json)} :
    s.RepresentedBy (.object members) ↔
      members.lookup "validate-hierarchies" = some (.bool s.validateHierarchies) ∨
      members.lookup "validate-hierarchies" = none ∧ s = standard := by
  constructor
  · intro h
    cases h with
    | given h => exact .inl (by simpa [Json.hasFields_object_iff, Form.fields] using h)
    | noMember h => exact .inr ⟨h, rfl⟩
  · rintro (h | ⟨h, rfl⟩)
    · exact .given (.named (.cons h .nil))
    · exact .noMember h

theorem representedBy_array_iff {s : Settings} {items : List Json} :
    s.RepresentedBy (.array items) ↔
      items = [.bool s.validateHierarchies] ∨ items = [] ∧ s = standard := by
  constructor
  · intro h
    cases h with
    | given h => exact .inl (Json.hasFields_array_iff.1 h).1
    | noItem => exact .inr ⟨rfl, rfl⟩
  · rintro (rfl | ⟨rfl, rfl⟩)
    · exact .given (.inOrder rfl)
    · exact .noItem

theorem ofJson_eq_ok_iff {j : Json} {s : Settings} : ofJson j = .ok s ↔ s.RepresentedBy j := by
  obtain ⟨validate⟩ := s
  cases j with
  | object members =>
    rw [representedBy_object_iff, ofJson, Json.readMember]
    cases members.lookup "validate-hierarchies" with
    | none =>
      change Except.ok standard = .ok (Settings.mk validate) ↔ _
      simp [eq_comm]
    | some j =>
      change (some <$> Json.readBool j >>= fun found => _) = _ ↔ _
      simp
  | array items =>
    rw [representedBy_array_iff]
    rcases items with _ | ⟨j, rest⟩
    · simp [ofJson, standard, eq_comm]
    · simp [ofJson]
  | null | bool | integer | float | text =>
    refine iff_of_false (by simp [ofJson]) fun h => ?_
    cases h with
    | given h => cases h

theorem representedBy_toJson (s : Settings) : s.RepresentedBy s.toJson :=
  .given (.named (.cons rfl .nil))

theorem exact_json : Json.Exact toJson ofJson RepresentedBy := by
  refine .of_read_eq_ok_iff (fun _ _ => ofJson_eq_ok_iff) representedBy_toJson ?_
  intro members members' hdistinct hperm
  simp only [ofJson, Json.readMember_eq_of_perm hdistinct hperm]

end Settings

/-- Readers accept exactly the trees that represent a value and give that value, and they read back
what the writers make of it. -/
theorem Json.exact_readers :
    Json.Exact Qualifier.toJson Qualifier.ofJson Qualifier.RepresentedBy ∧
    Json.Exact Hierarchy.toJson Hierarchy.ofJson Hierarchy.RepresentedBy ∧
    Json.Exact Target.toJson Target.ofJson Target.RepresentedBy ∧
    Json.Exact AnnotatedType.toJson AnnotatedType.ofJson AnnotatedType.RepresentedBy ∧
    Json.Exact Settings.toJson Settings.ofJson Settings.RepresentedBy :=
  ⟨Qualifier.exact_json, Hierarchy.exact_json, Target.exact_json, AnnotatedType.exact_json,
    Settings.exact_json⟩

/-- Forms mix, members come in any order, and an unknown one is passed over. -/
example :
    AnnotatedType.ofJson (.array [.text "List",
      .array [.object [("qualifiers", .array [.array [.text "NonNull", .array []]]),
        ("line", .integer 7), ("name", .text "String"), ("arguments", .array [])]],
      .array []]) = .ok ⟨"List", [⟨"String", [], [.ofName "NonNull"]⟩], []⟩ :=
  rfl

end QualifierConstraints
