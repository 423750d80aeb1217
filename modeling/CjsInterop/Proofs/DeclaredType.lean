import CjsInterop.Manifest
import CjsInterop.Package
import CjsInterop.Proofs.JsonGrammar

/-! What the text of a manifest declares. It is promised that the JSON objects are the manifests, and that the type is the
text that the last member called `type` has for a value. All texts keep the promise but objects with a key that is no
text, with more than one `type`, or with a `type` that cannot be held, which are refused, and arrays of one value, which
are manifests with that value for a type. -/

namespace CjsInterop

namespace Json

def Lacks (key : Text) (members : List (Option Text × Json)) : Prop := ∀ entry ∈ members, entry.1 ≠ some key

/-- The last member called so has the value. -/
def LastValue (key : Text) (members : List (Option Text × Json)) (value : Json) : Prop :=
  ∃ before after, members = before ++ (some key, value) :: after ∧ Lacks key after

/-- Two members or more are called so. -/
def Repeats (key : Text) (members : List (Option Text × Json)) : Prop :=
  ∃ before first between second after,
    members = before ++ (some key, first) :: (between ++ (some key, second) :: after)

variable {key : Text} {members : List (Option Text × Json)} {value : Json}

theorem valuesOf_append (a b : List (Option Text × Json)) : valuesOf key (a ++ b) = valuesOf key a ++ valuesOf key b :=
  List.filterMap_append

theorem valuesOf_cons_self (value : Json) (members : List (Option Text × Json)) :
    valuesOf key ((some key, value) :: members) = value :: valuesOf key members := by
  simp [valuesOf]

theorem valuesOf_eq_nil_iff : valuesOf key members = [] ↔ Lacks key members := by
  simp [valuesOf, List.filterMap_eq_nil_iff, Lacks]

theorem exists_of_valuesOf_eq_cons {values : List Json} (h : valuesOf key members = value :: values) :
    ∃ before after, members = before ++ (some key, value) :: after ∧ valuesOf key after = values := by
  obtain ⟨before, ⟨k, v⟩, after, rfl, -, hentry, hafter⟩ := List.filterMap_eq_cons_iff.mp h
  have hk : k = some key ∧ v = value := by simpa using hentry
  obtain ⟨rfl, rfl⟩ := hk
  exact ⟨before, after, rfl, hafter⟩

theorem lastValue_iff : LastValue key members value ↔ (valuesOf key members).getLast? = some value := by
  constructor
  · rintro ⟨before, after, rfl, hafter⟩
    rw [valuesOf_append, valuesOf_cons_self, valuesOf_eq_nil_iff.mpr hafter]
    exact List.getLast?_concat
  · intro h
    obtain ⟨values, hvalues⟩ := List.getLast?_eq_some_iff.mp h
    obtain ⟨front, back, rfl, -, hback⟩ := List.filterMap_eq_append_iff.mp hvalues
    obtain ⟨before, after, rfl, hafter⟩ := exists_of_valuesOf_eq_cons hback
    exact ⟨front ++ before, after, by rw [List.append_assoc], valuesOf_eq_nil_iff.mp hafter⟩

theorem repeats_iff : Repeats key members ↔ ∃ first second values, valuesOf key members = first :: second :: values := by
  constructor
  · rintro ⟨before, first, between, second, after, rfl⟩
    simp only [valuesOf_append, valuesOf_cons_self]
    rcases valuesOf key before with _ | ⟨a, _ | ⟨b, more⟩⟩
    · rcases valuesOf key between with _ | ⟨c, others⟩
      · exact ⟨first, second, _, rfl⟩
      · exact ⟨first, c, _, rfl⟩
    · exact ⟨a, first, _, rfl⟩
    · exact ⟨a, b, _, rfl⟩
  · rintro ⟨first, second, values, hvalues⟩
    obtain ⟨before, rest, rfl, hrest⟩ := exists_of_valuesOf_eq_cons hvalues
    obtain ⟨between, after, rfl, -⟩ := exists_of_valuesOf_eq_cons hrest
    exact ⟨before, first, between, second, after, rfl⟩

end Json

namespace Manifest

open Json
open Package (text?)

/-- What is to be made of the text: nothing, unless it is an object; else its type, if it has one. -/
inductive Promised (text : Text) : Option (Option Text) → Prop
  | refused (h : ∀ members, ¬SpellsText text (.object members)) : Promised text none
  | untyped {members : List (Option Text × Json)} (h : SpellsText text (.object members)) (hlacks : Lacks "type" members) :
      Promised text (some none)
  | typed {members : List (Option Text × Json)} {value : Json} (h : SpellsText text (.object members))
      (hlast : LastValue "type" members value) : Promised text (some (text? value))

/-- Objects that are no manifests all the same. -/
inductive Refused (text : Text) : Prop
  | key {members : List (Option Text × Json)} (h : SpellsText text (.object members)) (hkey : none ∈ members.map Prod.fst)
  | repeated {members : List (Option Text × Json)} (h : SpellsText text (.object members)) (hmore : Repeats "type" members)
  | unheld {members : List (Option Text × Json)} {value : Json} (h : SpellsText text (.object members))
      (hlast : LastValue "type" members value) (hvalue : ¬value.isExact typeDepth)

/-- Arrays of nothing but a type. -/
def Lone (text : Text) (value : Json) : Prop := SpellsText text (.array [value]) ∧ value.isExact typeDepth

/-- What is promised of an object goes by its last value alone. -/
theorem promised_object {text : Text} {members : List (Option Text × Json)} (h : SpellsText text (.object members))
    {outcome : Option (Option Text)} :
    Promised text outcome ↔ outcome = some ((valuesOf "type" members).getLast?.bind text?) := by
  have hsame : ∀ {others}, SpellsText text (.object others) → members = others :=
    fun hothers => Json.object.inj (h.unique hothers)
  constructor
  · intro hpromised
    cases hpromised with
    | refused hnone => exact absurd h (hnone members)
    | untyped h' hlacks =>
      rw [hsame h', valuesOf_eq_nil_iff.mpr hlacks]
      rfl
    | typed h' hlast =>
      rw [hsame h', lastValue_iff.mp hlast]
      rfl
  · rintro rfl
    cases hlast : (valuesOf "type" members).getLast? with
    | none => exact .untyped h (valuesOf_eq_nil_iff.mp (List.getLast?_eq_none_iff.mp hlast))
    | some value => exact .typed h (lastValue_iff.mpr hlast)

theorem promised_of_no_object {text : Text} (h : ∀ members, ¬SpellsText text (.object members))
    {outcome : Option (Option Text)} : Promised text outcome ↔ outcome = none := by
  constructor
  · intro hpromised
    cases hpromised with
    | refused => rfl
    | untyped h' => exact absurd h' (h _)
    | typed h' => exact absurd h' (h _)
  · rintro rfl
    exact .refused h

theorem ofTypeValue_eq_ite (path : Path) (value : Json) :
    ofTypeValue path value = if value.isExact typeDepth then some ⟨path, text? value⟩ else none := by
  cases value <;> rfl

theorem Refused.exists_object {text : Text} (h : Refused text) : ∃ members, SpellsText text (.object members) := by
  cases h with
  | key h _ => exact ⟨_, h⟩
  | repeated h _ => exact ⟨_, h⟩
  | unheld h _ _ => exact ⟨_, h⟩

/-- What refuses an object, by its members alone. -/
theorem refused_object {text : Text} {members : List (Option Text × Json)} (h : SpellsText text (.object members)) :
    Refused text ↔ none ∈ members.map Prod.fst ∨ Repeats "type" members ∨
      ∃ value, LastValue "type" members value ∧ ¬value.isExact typeDepth := by
  have hsame : ∀ {others}, SpellsText text (.object others) → others = members :=
    fun hothers => Json.object.inj (hothers.unique h)
  constructor
  · intro hrefused
    cases hrefused with
    | key h' hkey => exact .inl (hsame h' ▸ hkey)
    | repeated h' hmore => exact .inr (.inl (hsame h' ▸ hmore))
    | unheld h' hlast hvalue => exact .inr (.inr ⟨_, hsame h' ▸ hlast, hvalue⟩)
  · rintro (hkey | hmore | ⟨value, hlast, hvalue⟩)
    · exact .key h hkey
    · exact .repeated h hmore
    · exact .unheld h hlast hvalue

/-- An object is a manifest unless it is refused. -/
theorem ofJson?_object {text : Text} {members : List (Option Text × Json)} (h : SpellsText text (.object members))
    (path : Path) :
    (Refused text ∧ ofJson? path (.object members) = none) ∨
      (¬Refused text ∧
        ofJson? path (.object members) = some ⟨path, (valuesOf "type" members).getLast?.bind text?⟩) := by
  have hany : (members.any fun entry => entry.1.isNone) = true ↔ none ∈ members.map Prod.fst := by
    simp
  rw [refused_object h]
  by_cases hkey : none ∈ members.map Prod.fst
  · exact .inl ⟨.inl hkey, if_pos (hany.mpr hkey)⟩
  rw [ofJson?, if_neg]
  case hnc => exact mt hany.mp hkey
  simp only [hkey, false_or, repeats_iff, lastValue_iff]
  rcases valuesOf "type" members with _ | ⟨first, _ | ⟨second, values⟩⟩
  · refine .inr ⟨?_, rfl⟩
    rintro (⟨_, _, _, hcons⟩ | ⟨_, hlast, -⟩)
    · cases hcons
    · cases hlast
  · simp only [ofTypeValue_eq_ite]
    by_cases hheld : first.isExact typeDepth
    · refine .inr ⟨?_, if_pos hheld⟩
      rintro (⟨_, _, _, hcons⟩ | ⟨_, hlast, hvalue⟩)
      · cases hcons
      · rw [← Option.some.inj hlast] at hvalue
        exact hvalue hheld
    · exact .inl ⟨.inr ⟨first, rfl, hheld⟩, if_neg hheld⟩
  · exact .inl ⟨.inl ⟨first, second, values, rfl⟩, rfl⟩

/-- Of the other values only arrays of one value are manifests. -/
theorem ofText?_of_no_object {text : Text} (h : ∀ members, ¬SpellsText text (.object members)) (path : Path) :
    (∃ value, Lone text value ∧ ofText? path text = some ⟨path, text? value⟩) ∨
      ((∀ value, ¬Lone text value) ∧ ofText? path text = none) := by
  cases hread : Json.ofText? text with
  | none =>
    refine .inr ⟨fun value hlone => ?_, by rw [ofText?, hread]; rfl⟩
    rw [ofText?_eq_some_iff.mpr hlone.1] at hread
    cases hread
  | some found =>
    have hspells := ofText?_eq_some_iff.mp hread
    have hcode : ofText? path text = ofJson? path found := by rw [ofText?, hread]; rfl
    have hother : (∀ value, found ≠ .array [value]) → ∀ value, ¬Lone text value :=
      fun hne value hlone => hne value (hspells.unique hlone.1)
    rw [hcode]
    cases found with
    | object members => exact absurd hspells (h members)
    | array items =>
      rcases items with _ | ⟨value, _ | ⟨second, items⟩⟩
      · exact .inr ⟨hother (fun _ he => by cases he), rfl⟩
      · simp only [ofJson?, ofTypeValue_eq_ite]
        by_cases hheld : value.isExact typeDepth
        · exact .inl ⟨value, ⟨hspells, hheld⟩, if_pos hheld⟩
        · refine .inr ⟨fun other hlone => ?_, if_neg hheld⟩
          have hsame : [value] = [other] := Json.array.inj (hspells.unique hlone.1)
          rw [List.singleton_inj.mp hsame] at hheld
          exact hheld hlone.2
      · exact .inr ⟨hother (fun _ he => by cases he), rfl⟩
    | null => exact .inr ⟨hother (fun _ he => by cases he), rfl⟩
    | bool b => exact .inr ⟨hother (fun _ he => by cases he), rfl⟩
    | number n => exact .inr ⟨hother (fun _ he => by cases he), rfl⟩
    | string s => exact .inr ⟨hother (fun _ he => by cases he), rfl⟩

/-- Every text has one promised outcome, and it is the outcome unless the text is an object that is refused or an array of
nothing but a type. -/
theorem declares_promised_iff (path : Path) (text : Text) :
    (∃! outcome, Promised text outcome) ∧
      (Promised text ((ofText? path text).map Manifest.type?) ↔ ¬Refused text ∧ ∀ value, ¬Lone text value) ∧
      (Refused text → ofText? path text = none) ∧
      (∀ value, Lone text value → ofText? path text = some ⟨path, text? value⟩) ∧
      ∀ manifest ∈ ofText? path text, manifest.path = path := by
  by_cases hobject : ∃ members, SpellsText text (.object members)
  · obtain ⟨members, hspells⟩ := hobject
    have hcode : ofText? path text = ofJson? path (.object members) := by
      rw [ofText?, ofText?_eq_some_iff.mpr hspells]
      rfl
    have hlone : ∀ value, ¬Lone text value := fun value hlone => by cases hspells.unique hlone.1
    refine ⟨⟨_, (promised_object hspells).mpr rfl, fun _ => (promised_object hspells).mp⟩, ?_⟩
    rw [promised_object hspells, hcode]
    rcases ofJson?_object hspells path with ⟨hrefused, hnone⟩ | ⟨hkept, hsome⟩
    · simp [hnone, hrefused, hlone]
    · simp [hsome, hkept, hlone]
  · have hnoObject : ∀ members, ¬SpellsText text (.object members) := not_exists.mp hobject
    have hkept : ¬Refused text := fun hrefused => hobject hrefused.exists_object
    refine ⟨⟨none, (promised_of_no_object hnoObject).mpr rfl, fun _ => (promised_of_no_object hnoObject).mp⟩, ?_⟩
    rw [promised_of_no_object hnoObject]
    rcases ofText?_of_no_object hnoObject path with ⟨value, hlone, hsome⟩ | ⟨hlone, hnone⟩
    · have hone : ∀ other, Lone text other → other = value := fun other hother =>
        List.singleton_inj.mp (Json.array.inj (hother.1.unique hlone.1))
      refine ⟨?_, fun hrefused => absurd hrefused hkept, fun other hother => ?_, ?_⟩
      · simp only [hsome, Option.map_some, reduceCtorEq, false_iff]
        exact fun hnone => hnone.2 value hlone
      · rw [hone other hother, hsome]
      · simp [hsome]
    · simp [hnone, hkept, hlone]

/-- A number that is too large to be held, the last of two types, and an array. -/
theorem declares_against_promise :
    Promised "\x7b\"type\":1e999\x7d" (some none) ∧ ofText? "package.json" "\x7b\"type\":1e999\x7d" = none ∧
      Promised "\x7b\"type\":\"module\",\"type\":\"commonjs\"\x7d" (some (some "commonjs")) ∧
      ofText? "package.json" "\x7b\"type\":\"module\",\"type\":\"commonjs\"\x7d" = none ∧
      Promised "[\"module\"]" none ∧ ofText? "package.json" "[\"module\"]" = some ⟨"package.json", some "module"⟩ := by
  have hnumber : Json.ofText? "\x7b\"type\":1e999\x7d" = some (.object [(some "type", .number "1e999")]) := by cbv
  have hrepeated : Json.ofText? "\x7b\"type\":\"module\",\"type\":\"commonjs\"\x7d" =
      some (.object [(some "type", .string (some "module")), (some "type", .string (some "commonjs"))]) := by cbv
  have harray : Json.ofText? "[\"module\"]" = some (.array [.string (some "module")]) := by cbv
  refine ⟨(promised_object (ofText?_eq_some_iff.mp hnumber)).mpr ?_, by decide +kernel,
    (promised_object (ofText?_eq_some_iff.mp hrepeated)).mpr ?_, by decide +kernel, .refused fun members hmembers => ?_,
    by decide +kernel⟩
  · rfl
  · rfl
  · cases (ofText?_eq_some_iff.mp harray).unique hmembers

end Manifest

end CjsInterop
