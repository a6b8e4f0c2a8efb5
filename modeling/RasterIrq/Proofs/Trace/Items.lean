import RasterIrq.Trace.Options
import RasterIrq.Proofs.Text.Numeral
import Mathlib.Data.List.Induction

/-!
# Items of a command line

An item is a setting with a value that it takes, or a switch. Items are read one after the other,
and each one sets its option on top of what the items before it left. So the last item for an option
decides, and items of different options can change places.

Results:
1. `Trace.Setting.apply_of_takes`, `Trace.Setting.apply_of_refuses`: which values a setting takes.
2. `Trace.Request.read_append`: items are read one after the other.
3. `Trace.foldl_set`: what they leave is the last value of each setting.
4. `Trace.Options.ofItems_of_reordered`: so it is in another order.
5. `Trace.Request.read_help`, `Trace.Request.read_of_faulty`: what ends the reading.
-/

namespace RasterIrq

namespace Trace

/-! ## Items -/

/-- What the number of a setting stays below, if the setting takes a number. -/
def Setting.bound? : Setting → Option Nat
  | rom | state => none
  | mapper => some UInt16.size
  | submapper | latch => some UInt8.size
  | frames => some UInt32.size

/-- The values that a setting takes: any text, or the numerals below its bound. -/
def Setting.Takes (s : Setting) (text : String) : Prop :=
  ∀ bound ∈ s.bound?, Numeral.Proper bound text

instance (s : Setting) (text : String) : Decidable (s.Takes text) :=
  inferInstanceAs (Decidable (∀ bound ∈ s.bound?, Numeral.Proper bound text))

/-- Why a setting does not take a value. -/
def Setting.Refuses (s : Setting) (text : String) (cause : NumeralError) : Prop :=
  ∃ bound ∈ s.bound?, Numeral.Refused bound text cause

/-- A setting with a value that it takes, or a switch. -/
inductive Item where
  | setting (s : Setting) (text : String) (takes : s.Takes text)
  | switch (s : Switch)
deriving DecidableEq

namespace Item

def flag : Item → String
  | setting s _ _ => s.flag
  | switch s => s.flag

def arguments : Item → List String
  | setting s text _ => [s.flag, text]
  | switch s => [s.flag]

/-- The value that an item gives to a setting. -/
def text? (s : Setting) : Item → Option String
  | setting s' text _ => if s' = s then some text else none
  | switch _ => none

def isSwitch (s : Switch) : Item → Bool
  | setting _ _ _ => false
  | switch s' => s' = s

end Item

/-- The arguments that spell the items. -/
def commandLine (items : List Item) : List String :=
  items.flatMap Item.arguments

/-- The value of the last item for a setting. -/
def lastText (s : Setting) (items : List Item) : Option String :=
  (items.filterMap (Item.text? s)).getLast?

def hasSwitch (s : Switch) (items : List Item) : Bool :=
  items.any (Item.isSwitch s)

/-- The options where each setting has the value of the last item for it, or its default if there is
none, and a switch is turned if an item turns it. -/
def Options.ofItems (items : List Item) : Options where
  rom := lastText .rom items
  mapper := ((lastText .mapper items).map fun t => UInt16.ofNat (Numeral.value t)).getD 4
  submapper := ((lastText .submapper items).map fun t => UInt8.ofNat (Numeral.value t)).getD 0
  frames := ((lastText .frames items).map fun t => UInt32.ofNat (Numeral.value t)).getD 1
  latch := (lastText .latch items).map fun t => UInt8.ofNat (Numeral.value t)
  acknowledge := !hasSwitch .noAck items
  spritesLow := hasSwitch .spritesLow items
  state := lastText .state items
  dumpState := hasSwitch .dumpState items
  verifyState := hasSwitch .verifyState items

/-! ## Flags and faults -/

def helpFlags : List String :=
  ["--help", "-h"]

def flags : List String :=
  Setting.all.map Setting.flag ++ Switch.all.map Switch.flag ++ helpFlags

/-- The same items in another order, where the items of one option keep theirs. -/
def Reordered (items items' : List Item) : Prop :=
  ∀ flag ∈ flags, items.filter (·.flag = flag) = items'.filter (·.flag = flag)

instance (items items' : List Item) : Decidable (Reordered items items') :=
  inferInstanceAs (Decidable (∀ flag ∈ flags, _ = _))

/-- The arguments begin with one that names no option, or with a setting that lacks its value or
does not take it. Nothing is asked of the arguments behind these. -/
inductive Faulty : List String → UsageError → Prop where
  | unknown {arg : String} (rest : List String) : arg ∉ flags →
      Faulty (arg :: rest) (.unknownArgument arg)
  | missing (s : Setting) : Faulty [s.flag] (.missingValue s)
  | invalid {s : Setting} {text : String} {cause : NumeralError} (rest : List String) :
      s.Refuses text cause → Faulty (s.flag :: text :: rest) (.invalidValue s text cause)

/-! ## Values -/

namespace Setting

/-- Sets the option to the text, or to the number if it takes one. -/
def assign (s : Setting) (text : String) (n : Nat) (o : Options) : Options :=
  match s with
  | rom => { o with rom := some text }
  | mapper => { o with mapper := UInt16.ofNat n }
  | submapper => { o with submapper := UInt8.ofNat n }
  | frames => { o with frames := UInt32.ofNat n }
  | latch => { o with latch := some (UInt8.ofNat n) }
  | state => { o with state := some text }

/-- A value is set as it is written, or read below the setting's bound. -/
theorem apply_eq (s : Setting) (text : String) (o : Options) :
    s.apply text o = match s.bound? with
      | none => .ok (s.assign text (Numeral.value text) o)
      | some bound => (Numeral.read bound text.toList).map fun n => s.assign text n o := by
  have hmap : ∀ {α : Type} (bound : Nat) (f : Nat → α) (g : α → Options),
      ((Numeral.read bound text.toList).map f).map g
        = (Numeral.read bound text.toList).map fun n => g (f n) :=
    fun bound f g => (comp_map f g (Numeral.read bound text.toList)).symm
  cases s with
  | rom => rfl
  | mapper => exact hmap _ _ _
  | submapper => exact hmap _ _ _
  | frames => exact hmap _ _ _
  | latch => exact hmap _ _ _
  | state => rfl

theorem pos_of_mem_bound? {s : Setting} {bound : Nat} (h : bound ∈ s.bound?) : 0 < bound := by
  cases s <;> cases h <;> decide

theorem apply_of_takes {s : Setting} {text : String} (h : s.Takes text) (o : Options) :
    s.apply text o = .ok (s.assign text (Numeral.value text) o) := by
  rw [apply_eq]
  cases hbound : s.bound? with
  | none => rfl
  | some bound =>
    dsimp only
    rw [Numeral.read_of_proper (h bound hbound)]
    rfl

theorem apply_of_refuses {s : Setting} {text : String} {cause : NumeralError}
    (h : s.Refuses text cause) (o : Options) : s.apply text o = .error cause := by
  obtain ⟨bound, hbound, hrefused⟩ := h
  rw [apply_eq, Option.mem_def.mp hbound]
  dsimp only
  rw [Numeral.read_of_refused (pos_of_mem_bound? hbound) hrefused]
  rfl

theorem takes_or_refuses (s : Setting) (text : String) :
    s.Takes text ∨ ∃ cause, s.Refuses text cause := by
  cases hbound : s.bound? with
  | none => exact .inl fun bound h => by rw [hbound] at h; cases h
  | some bound =>
    obtain hproper | ⟨cause, hrefused⟩ := Numeral.proper_or_refused bound text
    · refine .inl fun bound' h => ?_
      rw [hbound] at h
      cases h
      exact hproper
    · exact .inr ⟨cause, bound, hbound, hrefused⟩

end Setting

/-! ## Flags -/

theorem mem_flags_iff {arg : String} :
    arg ∈ flags ↔
      (∃ s : Setting, arg = s.flag) ∨ (∃ s : Switch, arg = s.flag) ∨ arg ∈ helpFlags := by
  have hsetting : ∀ s : Setting, s ∈ Setting.all := by intro s; cases s <;> decide
  have hswitch : ∀ s : Switch, s ∈ Switch.all := by intro s; cases s <;> decide
  simp only [flags, List.append_assoc, List.mem_append, List.mem_map, hsetting, hswitch, true_and,
    eq_comm]

theorem Argument.ofText_setting (s : Setting) : ofText s.flag = .setting s := by
  cases s <;> rfl

theorem Argument.ofText_switch (s : Switch) : ofText s.flag = .switch s := by
  cases s <;> rfl

theorem Argument.ofText_help {arg : String} (h : arg ∈ helpFlags) : ofText arg = .help := by
  obtain rfl | rfl : arg = "--help" ∨ arg = "-h" := by simpa [helpFlags] using h
  · rfl
  · rfl

theorem Argument.ofText_unknown {arg : String} (h : arg ∉ flags) : ofText arg = .unknown := by
  rw [mem_flags_iff, not_or, not_or, not_exists, not_exists] at h
  obtain ⟨hsetting, hswitch, hhelp⟩ := h
  have hnoSetting : (Setting.all.find? fun s => s.flag == arg) = none := by
    rw [List.find?_eq_none]
    intro s _ heq
    exact hsetting s (eq_of_beq heq).symm
  have hnoSwitch : (Switch.all.find? fun s => s.flag == arg) = none := by
    rw [List.find?_eq_none]
    intro s _ heq
    exact hswitch s (eq_of_beq heq).symm
  rw [ofText, hnoSetting]
  dsimp only
  rw [hnoSwitch]
  exact if_neg (by simpa [helpFlags] using hhelp)

/-! ## Reading items -/

/-- The options with what an item sets. -/
def Item.set (item : Item) (o : Options) : Options :=
  match item with
  | setting s text _ => s.assign text (Numeral.value text) o
  | switch s => s.apply o

namespace Request

theorem read_cons (o : Options) (item : Item) (tail : List String) :
    read o (item.arguments ++ tail) = read (item.set o) tail := by
  cases item with
  | setting s text takes =>
    show read o (s.flag :: text :: tail) = _
    rw [read, Argument.ofText_setting]
    dsimp only
    rw [Setting.apply_of_takes takes]
    rfl
  | switch s =>
    show read o (s.flag :: tail) = _
    rw [read, Argument.ofText_switch]
    rfl

/-- Items are read one after the other, each on top of the options that the ones before it left. -/
theorem read_append (o : Options) (items : List Item) (tail : List String) :
    read o (commandLine items ++ tail)
      = read (items.foldl (fun o item => item.set o) o) tail := by
  induction items generalizing o with
  | nil => rfl
  | cons item items ih =>
    show read o (item.arguments ++ commandLine items ++ tail) = _
    rw [List.append_assoc, read_cons, ih]
    rfl

theorem read_help (o : Options) {arg : String} (h : arg ∈ helpFlags) (rest : List String) :
    read o (arg :: rest) = .ok help := by
  rw [read, Argument.ofText_help h]

/-- A fault is reported whatever the options are, so nothing of what was set before is looked at. -/
theorem read_of_faulty (o : Options) {args : List String} {e : UsageError} (h : Faulty args e) :
    read o args = .error e := by
  cases h with
  | unknown rest harg => rw [read, Argument.ofText_unknown harg]
  | missing s => rw [read, Argument.ofText_setting]
  | invalid rest hrefuses =>
    rw [read, Argument.ofText_setting]
    dsimp only
    rw [Setting.apply_of_refuses hrefuses]

end Request

/-! ## The last value of each setting -/

section LastValue

variable (items : List Item) (item : Item)

theorem lastText_concat (s : Setting) :
    lastText s (items ++ [item]) = (item.text? s).or (lastText s items) := by
  rw [lastText, List.filterMap_append, List.getLast?_append]
  cases h : item.text? s <;> simp [h, lastText]

theorem hasSwitch_concat (s : Switch) :
    hasSwitch s (items ++ [item]) = (hasSwitch s items || item.isSwitch s) := by
  simp [hasSwitch]

/-- One more item overrides what the items before it set for its option, and nothing else. -/
theorem Options.ofItems_concat : ofItems (items ++ [item]) = item.set (ofItems items) := by
  unfold ofItems
  simp only [lastText_concat, hasSwitch_concat]
  -- One case for each option, since each has a field of its own.
  cases item with
  | setting s text takes => cases s <;> simp [Item.text?, Item.isSwitch, Item.set, Setting.assign]
  | switch s => cases s <;> simp [Item.text?, Item.isSwitch, Item.set, Switch.apply]

/-- What items set one after the other is the last value of each setting. -/
theorem foldl_set :
    items.foldl (fun o item => item.set o) {} = Options.ofItems items := by
  induction items using List.reverseRecOn with
  | nil => rfl
  | append_singleton items item ih =>
    rw [List.foldl_append, ih, Options.ofItems_concat]
    rfl

end LastValue

/-! ## Other orders -/

/-- Only the items of a setting can give it a value. -/
theorem lastText_filter (s : Setting) (items : List Item) :
    lastText s (items.filter (·.flag = s.flag)) = lastText s items := by
  rw [lastText, List.filterMap_filter, lastText]
  congr 2
  funext item
  cases item with
  | setting s' text takes =>
    by_cases h : s' = s
    · simp [Item.flag, h]
    · simp [Item.text?, h]
  | switch s' => simp [Item.text?]

theorem hasSwitch_filter (s : Switch) (items : List Item) :
    hasSwitch s (items.filter (·.flag = s.flag)) = hasSwitch s items := by
  rw [hasSwitch, List.any_filter, hasSwitch]
  congr 1
  funext item
  cases item with
  | setting s' text takes => simp [Item.isSwitch]
  | switch s' =>
    by_cases h : s' = s
    · simp [Item.flag, h]
    · simp [Item.isSwitch, h]

/-- The options look at the items of one option at a time. -/
theorem Options.ofItems_of_reordered {items items' : List Item} (h : Reordered items items') :
    ofItems items = ofItems items' := by
  have htext : ∀ s, lastText s items = lastText s items' := fun s => by
    rw [← lastText_filter, h s.flag (mem_flags_iff.mpr (.inl ⟨s, rfl⟩)), lastText_filter]
  have hswitch : ∀ s, hasSwitch s items = hasSwitch s items' := fun s => by
    rw [← hasSwitch_filter, h s.flag (mem_flags_iff.mpr (.inr (.inl ⟨s, rfl⟩))), hasSwitch_filter]
  simp only [ofItems, htext, hswitch]

end Trace

end RasterIrq
