import Mathlib.Data.List.Count
import Mathlib.Data.List.Nodup
import Mathlib.Data.List.Perm.Basic
import Mathlib.Data.Set.List
import RasterIrq.Proofs.Json.Reading

/-!
# Objects with named fields

What an object says about some names does not depend on the order of its members, nor on members
under other names: `HoldsFields` states that it has these fields among the names and no others, and
then the fields read back. In the other direction, `FieldFault` lists what makes an object unfit: a
name is missing that may not be, a name is repeated, or the value under a name is a bad one. An
object whose fields read, with a good value under every required name, has no fault.

Results:
1. `memberOnce?_eq_some_iff`: what stands under a name, by the members that have it.
2. `fields?_of_holdsFields`: the fields that an object holds are read, whatever the layout.
3. `not_fieldFault_of_fields?`: a fault shows in the values that are read.
4. `HoldsFields.fieldFault_of_removed`, `HoldsFields.fieldFault_of_repeated`: how an object that
   holds fields gets a fault.
-/

namespace RasterIrq.Json

/-! ## Members by name -/

/-- The members of an object, with what their keys read as. -/
def named (members : List (List Piece × Json)) : List (Option String × Json) :=
  members.map fun m => (Piece.text? m.1, m.2)

/-- A member whose key reads as a text. -/
def textual (f : String × Json) : Option String × Json :=
  (some f.1, f.2)

theorem textual_injective : Function.Injective textual := by
  rintro ⟨k, v⟩ ⟨k', v'⟩ h
  cases h
  rfl

theorem mem_textual {name : String} {v : Json} {fields : List (String × Json)} :
    (some name, v) ∈ fields.map textual ↔ (name, v) ∈ fields := by
  simp [textual]

theorem named_written (fields : List (String × Json)) :
    named (fields.map fun f => (Piece.ofText f.1, f.2)) = fields.map textual := by
  rw [named, List.map_map]
  exact List.map_congr_left fun f _ => congrArg (·, f.2) (Piece.text?_ofText f.1)

/-- What an object's reader makes of its members, if all keys are texts. -/
theorem mapM_keys_eq_some_iff {members : List (List Piece × Json)} {fields : List (String × Json)} :
    members.mapM (fun m => do return (← Piece.text? m.1, m.2)) = some fields ↔
      named members = fields.map textual := by
  induction members generalizing fields with
  | nil => simp [named, eq_comm]
  | cons m members ih =>
    rw [List.mapM_cons]
    constructor
    · intro h
      obtain ⟨f, hf, h⟩ := Option.bind_eq_some_iff.mp h
      obtain ⟨rest, hrest, h⟩ := Option.bind_eq_some_iff.mp h
      obtain ⟨key, hkey, hf⟩ := Option.bind_eq_some_iff.mp hf
      cases h
      cases hf
      rw [List.map_cons, ← ih.mp hrest, named, List.map_cons, hkey]
      rfl
    · intro h
      cases fields with
      | nil => cases h
      | cons f rest =>
        obtain ⟨hf, hrest⟩ := List.cons.inj h
        have hkey : Piece.text? m.1 = some f.1 := congrArg Prod.fst hf
        have hvalue : m.2 = f.2 := congrArg Prod.snd hf
        rw [hkey, hvalue, ih.mpr hrest]
        rfl

/-- The fields of an object are read if all keys are texts, and then by these texts. -/
theorem fields?_object_eq_some_iff {members : List (List Piece × Json)} {names : List String}
    {values : List (Option Json)} :
    (object members).fields? names = some values ↔
      ∃ fields, named members = fields.map textual ∧
        names.mapM (memberOnce? fields) = some values := by
  have hread : (object members).fields? names
      = (members.mapM fun m : List Piece × Json => do return (← Piece.text? m.1, m.2)).bind
          fun fields => names.mapM (memberOnce? fields) := rfl
  rw [hread, Option.bind_eq_some_iff]
  simp only [mapM_keys_eq_some_iff]

/-- Under a name stands what its only member holds, or nothing if there is no such member. -/
theorem memberOnce?_eq_some_iff {fields : List (String × Json)} {name : String}
    {value : Option Json} :
    memberOnce? fields name = some value ↔
      fields.filter (fun f => f.1 == name) = value.toList.map fun v => (name, v) := by
  have hmem : ∀ f ∈ fields.filter (fun f => f.1 == name), f.1 = name := fun f hf =>
    beq_iff_eq.mp (List.mem_filter.mp hf).2
  unfold memberOnce?
  generalize fields.filter (fun f => f.1 == name) = found at hmem
  rcases found with _ | ⟨⟨k, v⟩, _ | ⟨m, rest⟩⟩
  · cases value <;> simp
  · obtain rfl : k = name := hmem (k, v) List.mem_cons_self
    cases value <;> simp
  · cases value <;> simp

/-! ## Objects that hold fields -/

/-- An object that has these fields, in any order, and no others among the names. Members under
other names may stand between them, also several under one name. -/
def HoldsFields (names : List String) (fields : List (String × Json)) (v : Json) : Prop :=
  ∃ members others, v = .object members ∧ (named members).Perm ((fields ++ others).map textual) ∧
    ∀ f ∈ others, f.1 ∉ names

/-- Written fields are held, in every order and among others. -/
theorem holdsFields_ofFields {names : List String} {fields others written : List (String × Json)}
    (hperm : written.Perm (fields ++ others)) (hothers : ∀ f ∈ others, f.1 ∉ names) :
    HoldsFields names fields (ofFields written) :=
  ⟨_, others, rfl, named_written written ▸ hperm.map textual, hothers⟩

theorem filter_eq_lookup {fields : List (String × Json)} (hnames : (fields.map (·.1)).Nodup)
    (name : String) :
    fields.filter (fun f => f.1 == name) = (fields.lookup name).toList.map fun v => (name, v) := by
  induction fields with
  | nil => rfl
  | cons f fields ih =>
    obtain ⟨k, v⟩ := f
    rw [List.map_cons, List.nodup_cons] at hnames
    rw [List.filter_cons, List.lookup_cons]
    by_cases hk : k = name
    · subst hk
      have hrest : fields.filter (fun f => f.1 == k) = [] := by
        rw [List.filter_eq_nil_iff]
        intro f hf heq
        exact hnames.1 (List.mem_map.mpr ⟨f, hf, beq_iff_eq.mp heq⟩)
      simp [hrest]
    · have hk' : (name == k) = false := beq_eq_false_iff_ne.mpr fun h => hk h.symm
      simp [hk, hk', ih hnames.2]

/-- The fields that an object holds are read, each under its name. -/
theorem fields?_of_holdsFields {names : List String} {fields : List (String × Json)} {v : Json}
    (hnames : (fields.map (·.1)).Nodup) (h : HoldsFields names fields v) :
    v.fields? names = some (names.map fun name => fields.lookup name) := by
  obtain ⟨members, others, rfl, hperm, hothers⟩ := h
  obtain ⟨found, hfound⟩ : named members ∈ Set.range (List.map textual) := by
    rw [Set.range_list_map]
    intro m hm
    obtain ⟨f, -, hf⟩ := List.mem_map.mp (hperm.mem_iff.mp hm)
    exact ⟨f, hf⟩
  rw [← hfound, List.map_perm_map_iff textual_injective] at hperm
  refine fields?_object_eq_some_iff.mpr ⟨found, hfound.symm, mapM_eq_some fun name hname => ?_⟩
  rw [memberOnce?_eq_some_iff]
  have hnone : others.filter (fun f => f.1 == name) = [] := by
    rw [List.filter_eq_nil_iff]
    intro f hf heq
    exact hothers f hf (beq_iff_eq.mp heq ▸ hname)
  have hfilter := hperm.filter fun f => f.1 == name
  rw [List.filter_append, hnone, List.append_nil, filter_eq_lookup hnames] at hfilter
  cases hlookup : fields.lookup name with
  | none =>
    rw [hlookup] at hfilter
    exact List.perm_nil.mp hfilter
  | some v =>
    rw [hlookup] at hfilter
    exact List.perm_singleton.mp hfilter

/-! ## Objects with a fault -/

/-- What makes an object unfit to give fields under these names: a name that may not be missing is
missing, a name is repeated, or the value under a name is bad. -/
inductive FieldFault (names optional : List String) (bad : String → Json → Prop) : Json → Prop
  | missing {members : List (List Piece × Json)} {name : String} (hname : name ∈ names)
      (hrequired : name ∉ optional) (h : some name ∉ (named members).map (·.1)) :
      FieldFault names optional bad (.object members)
  | repeated {members : List (List Piece × Json)} {name : String} (hname : name ∈ names)
      (h : 2 ≤ ((named members).map (·.1)).count (some name)) :
      FieldFault names optional bad (.object members)
  | value {members : List (List Piece × Json)} {name : String} {v : Json} (hname : name ∈ names)
      (h : (some name, v) ∈ named members) (hbad : bad name v) :
      FieldFault names optional bad (.object members)

theorem exists_mem_zip_of_mapM {α β : Type} {f : α → Option β} {l : List α} {l' : List β}
    (h : l.mapM f = some l') {a : α} (ha : a ∈ l) : ∃ b, (a, b) ∈ l.zip l' ∧ f a = some b := by
  induction l generalizing l' with
  | nil => cases ha
  | cons c l ih =>
    rw [List.mapM_cons] at h
    obtain ⟨b, hb, h⟩ := Option.bind_eq_some_iff.mp h
    obtain ⟨bs, hbs, h⟩ := Option.bind_eq_some_iff.mp h
    cases h
    rcases List.mem_cons.mp ha with rfl | ha
    · exact ⟨b, List.mem_cons_self, hb⟩
    · obtain ⟨b', hzip, hb'⟩ := ih hbs ha
      exact ⟨b', List.mem_cons_of_mem _ hzip, hb'⟩

/-- If the fields of an object are read, with a value under every required name and a bad one under
none, then the object has no fault. -/
theorem not_fieldFault_of_fields? {names optional : List String} {bad : String → Json → Prop}
    {v : Json} {values : List (Option Json)} (hread : v.fields? names = some values)
    (hgood : ∀ p ∈ names.zip values, (p.2 = none → p.1 ∈ optional) ∧ ∀ w ∈ p.2, ¬ bad p.1 w) :
    ¬ FieldFault names optional bad v := by
  intro hfault
  -- The members under a name decide what is read there.
  have hvalue : ∀ {members : List (List Piece × Json)} {name : String}, v = .object members →
      name ∈ names → ∃ value, ∃ fields : List (String × Json), (name, value) ∈ names.zip values ∧
        named members = fields.map textual ∧
        fields.filter (fun f => f.1 == name) = value.toList.map fun w => (name, w) := by
    rintro members name rfl hname
    obtain ⟨fields, hfields, hmapM⟩ := fields?_object_eq_some_iff.mp hread
    obtain ⟨value, hzip, honce⟩ := exists_mem_zip_of_mapM hmapM hname
    exact ⟨value, fields, hzip, hfields, memberOnce?_eq_some_iff.mp honce⟩
  cases hfault with
  | @missing members name hname hrequired hmissing =>
    obtain ⟨value, fields, hzip, hfields, hfilter⟩ := hvalue rfl hname
    cases value with
    | none => exact hrequired ((hgood _ hzip).1 rfl)
    | some w =>
      have hmem : (name, w) ∈ fields.filter fun f => f.1 == name :=
        hfilter ▸ List.mem_singleton_self _
      rw [hfields] at hmissing
      exact absurd (List.mem_map_of_mem (mem_textual.mpr (List.mem_filter.mp hmem).1)) hmissing
  | @repeated members name hname hcount =>
    obtain ⟨value, fields, -, hfields, hfilter⟩ := hvalue rfl hname
    have hlength : (fields.filter fun f => f.1 == name).length ≤ 1 := by
      rw [hfilter, List.length_map]
      cases value <;> simp
    rw [hfields, List.map_map, List.count_eq_countP, List.countP_map] at hcount
    rw [← List.countP_eq_length_filter] at hlength
    exact absurd (Nat.le_trans hcount hlength) (by decide)
  | @value members name w hname hmem hbad =>
    obtain ⟨value, fields, hzip, hfields, hfilter⟩ := hvalue rfl hname
    rw [hfields, mem_textual] at hmem
    have hmem' : (name, w) ∈ value.toList.map fun w => (name, w) := by
      rw [← hfilter, List.mem_filter]
      exact ⟨hmem, beq_self_eq_true name⟩
    exact (hgood _ hzip).2 w (by simpa using hmem') hbad

/-- A name stands as often among the members of an object as among the fields that it holds. -/
theorem HoldsFields.count_eq {names : List String} {fields : List (String × Json)}
    {members : List (List Piece × Json)} (h : HoldsFields names fields (.object members))
    {name : String} (hname : name ∈ names) :
    ((named members).map (·.1)).count (some name) = (fields.map (·.1)).count name := by
  obtain ⟨_, others, heq, hperm, hothers⟩ := h
  cases heq
  have hnames : ((named members).map (·.1)).Perm
      ((fields.map (·.1)).map some ++ (others.map (·.1)).map some) := by
    simpa [textual, Function.comp_def] using hperm.map (·.1)
  have hother : some name ∉ (others.map (·.1)).map some := by
    simp only [List.mem_map, Option.some.injEq, exists_eq_right]
    rintro ⟨f, hf, rfl⟩
    exact hothers f hf hname
  rw [hnames.count_eq, List.count_append, List.count_eq_zero_of_not_mem hother, Nat.add_zero,
    List.count_map_of_injective _ _ (Option.some_injective String)]

/-- When a field is removed that may not be missing, the object has a fault. -/
theorem HoldsFields.fieldFault_of_removed {names optional : List String}
    {bad : String → Json → Prop} {fields : List (String × Json)}
    {front back : List (List Piece × Json)} {m : List Piece × Json}
    (h : HoldsFields names fields (.object (front ++ m :: back)))
    (hfields : (fields.map (·.1)).Nodup) {name : String} (hm : Piece.text? m.1 = some name)
    (hname : name ∈ names) (hrequired : name ∉ optional) :
    FieldFault names optional bad (.object (front ++ back)) := by
  refine .missing hname hrequired fun hmem => ?_
  have hcount := h.count_eq hname
  have honce := List.nodup_iff_count_le_one.mp hfields name
  have hrest := List.count_pos_iff.mpr hmem
  simp only [named, List.map_append, List.map_cons, List.count_append, hm,
    List.count_cons_self] at hcount hrest
  omega

/-- When a field is repeated, with its own value or another one, the object has a fault. -/
theorem HoldsFields.fieldFault_of_repeated {names optional : List String}
    {bad : String → Json → Prop} {fields : List (String × Json)}
    {front back : List (List Piece × Json)} {m : List Piece × Json}
    (h : HoldsFields names fields (.object (front ++ back))) {name : String}
    (hm : Piece.text? m.1 = some name) (hname : name ∈ names) (hmem : name ∈ fields.map (·.1)) :
    FieldFault names optional bad (.object (front ++ m :: back)) := by
  refine .repeated hname ?_
  have hcount := h.count_eq hname
  have hthere := List.count_pos_iff.mpr hmem
  simp only [named, List.map_append, List.map_cons, List.count_append, hm,
    List.count_cons_self] at hcount ⊢
  omega

/-! ## Numbers that do not fit -/

/-- A number that is no natural number below the bound: it has a sign, a point or an exponent, or it
is too large. -/
def OutOfRange (bound : Nat) (v : Json) : Prop :=
  ∃ spelling, v = .atom (.number spelling) ∧
    ((∃ c ∈ spelling, c.isDigit = false) ∨ bound ≤ Nat.ofDigitChars 10 spelling 0)

theorem natBelow?_of_outOfRange {bound : Nat} {v : Json} (h : OutOfRange bound v) :
    v.natBelow? bound = none := by
  obtain ⟨spelling, rfl, hspelling⟩ := h
  unfold natBelow? Number.natural?
  by_cases hdigits : Number.isDigits spelling = true
  · have hlarge : bound ≤ Nat.ofDigitChars 10 spelling 0 := by
      refine hspelling.resolve_left fun ⟨c, hc, hother⟩ => ?_
      rw [Number.isDigit_of_isDigits hdigits c hc] at hother
      cases hother
    simp [hdigits, Nat.not_lt.mpr hlarge]
  · simp [hdigits]

/-- What is read as a word of any size is in its range. -/
theorem not_outOfRange_of_map {α : Type} {bound : Nat} {v : Json} {ofNat : Nat → α} {a : α}
    (h : (v.natBelow? bound).map ofNat = some a) : ¬ OutOfRange bound v := by
  intro hout
  rw [natBelow?_of_outOfRange hout] at h
  cases h

theorem outOfRange_ofNat {bound n : Nat} (h : bound ≤ n) : OutOfRange bound (ofNat n) :=
  ⟨Number.ofNat n, rfl, .inr (by rwa [Number.ofNat, Nat.ofDigitChars_ten_toDigits])⟩

end RasterIrq.Json
