import EntityService.Config.Writer
import EntityService.Model.Resolve
import EntityService.Proofs.WrittenValue

/-!
# Configurations are read as they are written

A configuration that was read from texts, with whatever is left out or abbreviated in them, is read
again from the texts it is written as.

## Main definitions

* `IsReadable` — some tree is read as this
* `RoundTrips` — what was read is read again from what is written for it
* `Holds` — a field of a structure holds what was written
* `Configuration.normalized` — texts brought to the form in which their configuration is written

## Main results

* `RoundTrips.list`, `RoundTrips.map`, `RoundTrips.nullable` — round trips of parts make up round
  trips of the whole
* `exists_fields` — the fields of a structure are found again in the object written for it
* `roundTrips_entity`, `roundTrips_relation` — declarations are read as they are written
* `Configuration.normalized_texts_hold_configuration` — so are configurations, and bringing texts to
  that form changes nothing the second time

## Design notes

A round trip starts from what was read, not from any declaration: numbers have to fit into their
bounds and records have to be in order.  For a field with a default this means that the default
itself has to be readable, since it is written out.  Null is the absence of an option, so that an
option is read again only if what it holds is never written as null.
-/

namespace EntityService.Config

open EntityService.Json EntityService.Number EntityService.Query

section Reading

variable {α : Type} {read : Reads α} {write : α → Value}

/-! ### What is written is read -/

/-- Some tree is read as this. -/
def IsReadable (read : Reads α) (a : α) : Prop := ∃ t, read t = some a

/-- What was read is read again from what is written for it. -/
def RoundTrips (read : Reads α) (write : α → Value) : Prop :=
  ∀ a, IsReadable read a → (write a).ReadsBack → read (Tree.ofValue (write a)) = some a

theorem roundTrips_string : RoundTrips readString? Value.string := fun _ _ _ => rfl

theorem roundTrips_bool : RoundTrips readBool? Value.bool := fun _ _ _ => rfl

theorem le_of_isReadable_natural {bound n : Nat} (h : IsReadable (readNatural? bound) n) :
    n ≤ bound := by
  obtain ⟨t, ht⟩ := h
  cases t with
  | number numeral =>
      rw [readNatural?] at ht
      split at ht
      · split_ifs at ht with hk
        obtain rfl := Option.some.inj ht
        omega
      · cases ht
  | _ => cases ht

theorem number?_of_natural {n : Nat} (h : n ≤ maxNatural64) :
    (Tree.numeralOfInt n).number? = some (.integer n) :=
  Tree.number?_numeralOfInt (Int.le_trans (by decide) (Int.natCast_nonneg n)) (by omega)

theorem roundTrips_natural {bound : Nat} (hbound : bound ≤ maxNatural64) :
    RoundTrips (readNatural? bound) Value.ofNat := by
  intro n hn _
  have hle := le_of_isReadable_natural hn
  have hwritten : Tree.ofValue (Value.ofNat n) = .number (Tree.numeralOfInt n) := rfl
  rw [hwritten, readNatural?, number?_of_natural (Nat.le_trans hle hbound)]
  dsimp only
  rw [if_pos (by omega)]
  rfl

theorem roundTrips_double : RoundTrips readDouble? doubleValue := by
  intro x _ hback
  obtain ⟨n, hn, hx⟩ := (hback x List.mem_cons_self : IsReadBack x).exists_numeral
  have hwritten : Tree.ofValue (doubleValue x) = .number n := hn
  rw [hwritten, readDouble?, hx]
  rfl

theorem roundTrips_value (depth : Nat) : RoundTrips (readValueAt? depth) id := by
  rintro v ⟨t, ht⟩ hback
  exact Value.isReadAgain_of_valueWithin? t ht hback

theorem readItems?_ofItems {as : List α}
    (h : ∀ a ∈ as, read (Tree.ofValue (write a)) = some a) :
    readItems? read (Tree.ofItems (as.map write)) = some as := by
  induction as with
  | nil => rfl
  | cons a rest ih =>
      obtain ⟨hfirst, hrest⟩ := List.forall_mem_cons.mp h
      rw [List.map_cons, Tree.ofItems, readItems?, hfirst, ih hrest]
      rfl

theorem isReadable_of_readItems? {trees : List Tree} {as : List α}
    (h : readItems? read trees = some as) : ∀ a ∈ as, IsReadable read a := by
  induction trees generalizing as with
  | nil =>
      obtain rfl := Option.some.inj h
      exact nofun
  | cons t rest ih =>
      rw [readItems?] at h
      simp only [Option.bind_eq_bind, Option.bind_eq_some_iff, Option.pure_def] at h
      obtain ⟨first, hfirst, others, hothers, heq⟩ := h
      obtain rfl := Option.some.inj heq
      exact List.forall_mem_cons.mpr ⟨⟨t, hfirst⟩, ih hothers⟩

theorem isReadable_of_mem {as : List α} (h : IsReadable (readList? read) as) :
    ∀ a ∈ as, IsReadable read a := by
  obtain ⟨t, ht⟩ := h
  cases t with
  | array trees => exact isReadable_of_readItems? ht
  | _ => cases ht

/-- A list is read again when its items are. -/
theorem RoundTrips.list (h : RoundTrips read write) :
    RoundTrips (readList? read) fun as => .array (as.map write) := by
  intro as has hback
  rw [Value.readsBack_array] at hback
  exact readItems?_ofItems fun a ha =>
    h a (isReadable_of_mem has a ha) (hback _ (List.mem_map_of_mem ha))

theorem readEntries?_ofMembers {entries : List (String × α)}
    (h : ∀ entry ∈ entries, read (Tree.ofValue (write entry.2)) = some entry.2) :
    readEntries? read (Tree.ofMembers (entries.map fun (key, a) => (key, write a))) =
      some entries := by
  induction entries with
  | nil => rfl
  | cons entry rest ih =>
      obtain ⟨hfirst, hrest⟩ := List.forall_mem_cons.mp h
      rw [List.map_cons, Tree.ofMembers, readEntries?, hfirst, ih hrest]
      rfl

theorem isReadable_of_readEntries? {trees : List (Option String × Tree)}
    {entries : List (String × α)} (h : readEntries? read trees = some entries) :
    ∀ entry ∈ entries, IsReadable read entry.2 := by
  induction trees generalizing entries with
  | nil =>
      obtain rfl := Option.some.inj h
      exact nofun
  | cons tree rest ih =>
      obtain ⟨key?, t⟩ := tree
      rw [readEntries?] at h
      simp only [Option.bind_eq_bind, Option.bind_eq_some_iff, Option.pure_def] at h
      obtain ⟨key, -, first, hfirst, others, hothers, heq⟩ := h
      obtain rfl := Option.some.inj heq
      exact List.forall_mem_cons.mpr ⟨⟨t, hfirst⟩, ih hothers⟩

/-- A map is read again when its values are. -/
theorem RoundTrips.map (h : RoundTrips read write) :
    RoundTrips (readMap? read) fun entries =>
      .object (entries.map fun (key, a) => (key, write a)) := by
  rintro entries ⟨t, ht⟩ hback
  rw [Value.readsBack_object] at hback
  cases t with
  | object trees =>
      obtain ⟨members, hmembers, rfl⟩ := Option.map_eq_some_iff.mp ht
      have hentries : ∀ entry ∈ Record.ofList members,
          read (Tree.ofValue (write entry.2)) = some entry.2 := fun entry hentry =>
        h entry.2 (isReadable_of_readEntries? hmembers entry
          ((Record.mem_putAll hentry).resolve_left nofun)) (hback _ (List.mem_map_of_mem hentry))
      show (readEntries? read (Tree.ofMembers _)).map Record.ofList = _
      rw [readEntries?_ofMembers hentries, Option.map_some,
        Record.ofList_of_ascending (Record.ascending_ofList members)]
  | _ => cases ht

/-! ### Options -/

theorem nullable_of_ne_null {t : Tree} (h : t ≠ .null) (read : Reads α) :
    nullable read t = (read t).map some := by
  cases t with
  | null => exact absurd rfl h
  | _ => rfl

theorem isReadable_of_nullable {a : α} (h : IsReadable (nullable read) (some a)) :
    IsReadable read a := by
  obtain ⟨t, ht⟩ := h
  cases t with
  | null => cases ht
  | _ =>
      obtain ⟨b, hb, heq⟩ := Option.map_eq_some_iff.mp ht
      cases heq
      exact ⟨_, hb⟩

/-- An option is read again when what it holds is, unless that is read from null. -/
theorem RoundTrips.nullable (h : RoundTrips read write) (hnull : read .null = none) :
    RoundTrips (nullable read) (optionValue write) := by
  intro a? ha hback
  cases a? with
  | none => rfl
  | some a =>
      have hagain := h a (isReadable_of_nullable ha) hback
      have hne : Tree.ofValue (write a) ≠ .null := by
        intro heq
        rw [heq, hnull] at hagain
        cases hagain
      rw [optionValue, nullable_of_ne_null hne, hagain]
      rfl

/-- An option of a value is read again: null is the absence of a value, not a value. -/
theorem roundTrips_option_value (depth : Nat) :
    RoundTrips (nullable (readValueAt? depth)) (optionValue id) := by
  rintro v? ⟨t, ht⟩ hback
  cases v? with
  | none => rfl
  | some v =>
      have hne : t ≠ .null := by
        rintro rfl
        cases ht
      rw [nullable_of_ne_null hne] at ht
      obtain ⟨w, hv, heq⟩ := Option.map_eq_some_iff.mp ht
      obtain rfl : w = v := Option.some.inj heq
      have hagain : readValueAt? depth (Tree.ofValue w) = some w :=
        roundTrips_value depth w ⟨t, hv⟩ hback
      have hwritten : Tree.ofValue w ≠ .null := by
        intro hnull
        rw [hnull] at hagain
        cases hagain
        exact hne (Value.eq_null_of_valueWithin? hv)
      rw [optionValue, id, nullable_of_ne_null hwritten, hagain]
      rfl

/-! ### Structures -/

/-- A field of a structure holds what was written. -/
structure Holds (fields : List (String × Tree)) (name : String) (v : Value) : Prop where
  get? : Record.get? fields name = some (Tree.ofValue v)
  back : v.ReadsBack

section Fields

variable {fields : List (String × Tree)} {name : String} {a : α}

theorem RoundTrips.required (h : RoundTrips read write) (hfield : Holds fields name (write a))
    (ha : IsReadable read a) : required fields name read = some a := by
  rw [Config.required, hfield.get?, Option.bind_some, h a ha hfield.back]

theorem RoundTrips.withDefault (h : RoundTrips read write) (hfield : Holds fields name (write a))
    (ha : IsReadable read a) (default : α) : withDefault fields name default read = some a := by
  rw [Config.withDefault, hfield.get?]
  exact h a ha hfield.back

theorem RoundTrips.maybe {a? : Option α}
    (h : RoundTrips (Config.nullable read) (optionValue write))
    (hfield : Holds fields name (optionValue write a?))
    (ha : IsReadable (Config.nullable read) a?) :
    maybe fields name read = some a? :=
  h.withDefault hfield ha none

theorem isReadable_of_required (h : required fields name read = some a) : IsReadable read a := by
  obtain ⟨t, -, ht⟩ := Option.bind_eq_some_iff.mp h
  exact ⟨t, ht⟩

theorem isReadable_of_withDefault {default : α} (hdefault : IsReadable read default)
    (h : withDefault fields name default read = some a) : IsReadable read a := by
  unfold withDefault at h
  split at h
  · exact Option.some.inj h ▸ hdefault
  · exact ⟨_, h⟩

theorem isReadable_of_maybe {a? : Option α} (h : maybe fields name read = some a?) :
    IsReadable (nullable read) a? :=
  isReadable_of_withDefault ⟨.null, rfl⟩ h

end Fields

theorem knownFields?_ofMembers (names : List String) {r : Record} (hnodup : (Record.keys r).Nodup)
    (hnames : ∀ key ∈ Record.keys r, key ∈ names) :
    knownFields? names (Tree.ofMembers r) = some (r.map fun (key, v) => (key, Tree.ofValue v)) := by
  induction r with
  | nil => rfl
  | cons member rest ih =>
      obtain ⟨key, v⟩ := member
      obtain ⟨hnot, hrest⟩ := List.nodup_cons.mp hnodup
      obtain ⟨hname, hothers⟩ := List.forall_mem_cons.mp hnames
      have hhas : Record.has (rest.map fun (key, v) => (key, Tree.ofValue v)) key = false := by
        rw [Bool.eq_false_iff]
        intro hhas
        have hkey := Record.mem_keys_of_has hhas
        rw [Record.keys, List.map_map] at hkey
        exact hnot hkey
      rw [Tree.ofMembers, knownFields?, ih hrest hothers]
      simp only [Option.bind_eq_bind, Option.bind_some, List.contains_iff_mem.mpr hname, if_true,
        hhas, Bool.false_eq_true, if_false, Option.pure_def, List.map_cons]

theorem get?_map_snd {β : Type} (r : List (String × α)) (f : α → β) (key : String) :
    Record.get? (r.map fun (key, a) => (key, f a)) key = (Record.get? r key).map f := by
  induction r with
  | nil => rfl
  | cons member rest ih =>
      obtain ⟨k, a⟩ := member
      unfold Record.get? at ih ⊢
      rw [List.map_cons, List.lookup_cons, List.lookup_cons]
      split
      · rfl
      · exact ih

/-- The fields of a structure are found again in the object that is written for it. -/
theorem exists_fields (names : List String) {members : List (String × Value)}
    (hnodup : names.Nodup) (hnames : members.map Prod.fst = names)
    (hback : (Value.ofMembers members).ReadsBack) :
    ∃ fields, fields? names (Tree.ofValue (.ofMembers members)) = some fields ∧
      ∀ member ∈ members, Holds fields member.1 member.2 := by
  rw [Value.ofMembers, Value.readsBack_object] at hback
  have hascending := Record.ascending_ofList members
  have hfields := knownFields?_ofMembers names hascending.nodup_keys fun key hkey => by
    rw [← hnames]
    exact (Record.mem_keys_putAll.mp hkey).resolve_left nofun
  refine ⟨_, hfields, fun member hmember => ?_⟩
  have hget : Record.get? (Record.ofList members) member.1 = some member.2 :=
    Record.get?_putAll_of_mem (by rwa [Record.keys, hnames]) hmember []
  exact ⟨by rw [get?_map_snd, hget]; rfl, hback _ (Record.mem_of_get? hget)⟩

/-! ### Declarations -/

theorem isReadable_string (s : String) : IsReadable readString? s := ⟨.string (some s), rfl⟩

theorem isReadable_list_nil (read : Reads α) : IsReadable (readList? read) [] := ⟨.array [], rfl⟩

theorem isReadable_map_nil (read : Reads α) : IsReadable (readMap? read) [] := ⟨.object [], rfl⟩

theorem valueWithin?_ofNat {n : Nat} (h : n ≤ maxNatural64) (depth : Nat) :
    (Tree.ofValue (.ofNat n)).valueWithin? depth = some (.ofNat n) := by
  show ((Tree.numeralOfInt n).number?).map Value.number = _
  rw [number?_of_natural h]
  rfl

theorem isReadable_params {name : String} {params : Option (List Nat)}
    (h : IsReadable readColumnType? (.parameterized name params)) :
    IsReadable (nullable (readList? (readNatural? maxNatural32))) params := by
  obtain ⟨t, ht⟩ := h
  cases t with
  | string s =>
      obtain ⟨s, -, heq⟩ := Option.map_eq_some_iff.mp ht
      cases heq
  | object members =>
      simp only [readColumnType?, Option.bind_eq_bind, Option.bind_eq_some_iff,
        Option.pure_def] at ht
      obtain ⟨-, -, fields, -, name, -, params, hparams, heq⟩ := ht
      cases heq
      exact isReadable_of_withDefault ⟨.null, rfl⟩ hparams
  | null | bool | number | array => cases ht

/-- The numbers of a column type as they are written. -/
def paramsValue (params : Option (List Nat)) : Value :=
  optionValue (fun ns => .array (ns.map .ofNat)) params

theorem roundTrips_params :
    RoundTrips (nullable (readList? (readNatural? maxNatural32))) paramsValue :=
  (roundTrips_natural (by decide)).list.nullable rfl

theorem valueWithin?_paramsValue {params : Option (List Nat)}
    (h : IsReadable (nullable (readList? (readNatural? maxNatural32))) params) (depth : Nat) :
    (Tree.ofValue (paramsValue params)).valueWithin? (depth + 1) = some (paramsValue params) := by
  cases params with
  | none => rfl
  | some ns =>
      have hitems : ∀ v ∈ ns.map Value.ofNat, (Tree.ofValue v).valueWithin? depth = some v := by
        intro v hv
        obtain ⟨n, hn, rfl⟩ := List.mem_map.mp hv
        have hle := le_of_isReadable_natural (isReadable_of_mem (isReadable_of_nullable h) n hn)
        exact valueWithin?_ofNat (Nat.le_trans hle (by decide)) depth
      show (Tree.itemsWithin? depth (Tree.ofItems (ns.map Value.ofNat))).map Value.array = _
      rw [Value.itemsWithin?_ofItems hitems]
      rfl

/-- A column type that is written as an object is a value, as its reader demands. -/
theorem readValueAt?_parameterized (name : String) {params : Option (List Nat)}
    (h : IsReadable (nullable (readList? (readNatural? maxNatural32))) params) :
    readValueAt? 4 (Tree.ofValue (columnTypeValue (.parameterized name params))) =
      some (columnTypeValue (.parameterized name params)) := by
  have hmembers : ∀ member ∈ [("name", Value.string name), ("params", paramsValue params)],
      (Tree.ofValue member.2).valueWithin? 122 = some member.2 :=
    List.forall_mem_cons.mpr ⟨rfl, List.forall_mem_cons.mpr ⟨valueWithin?_paramsValue h 121, nofun⟩⟩
  exact congrArg (Option.map Value.ofMembers) (Value.membersWithin?_ofMembers hmembers)

theorem roundTrips_columnType : RoundTrips readColumnType? columnTypeValue := by
  intro type htype hback
  cases type with
  | simple name => rfl
  | parameterized name params =>
      have hparams := isReadable_params htype
      have hvalue := readValueAt?_parameterized name hparams
      obtain ⟨written, hwritten, hholds⟩ := exists_fields columnTypeFields (by decide) rfl hback
      simp only [List.forall_mem_cons] at hholds
      obtain ⟨hname, hnumbers, -⟩ := hholds
      rw [columnTypeValue, Value.ofMembers, Tree.ofValue] at hvalue ⊢
      rw [Value.ofMembers, Tree.ofValue, fields?] at hwritten
      rw [readColumnType?, hvalue, hwritten]
      simp only [Option.bind_eq_bind, Option.bind_some, Option.pure_def,
        roundTrips_string.required hname (isReadable_string name),
        roundTrips_params.withDefault hnumbers hparams]

theorem roundTrips_column : RoundTrips readColumn? columnValue := by
  rintro c ⟨t, ht⟩ hback
  unfold readColumn? at ht
  simp only [Option.bind_eq_bind, Option.bind_eq_some_iff, Option.pure_def] at ht
  obtain ⟨fields, -, name, -, type, htype, null, -, default, hdefault, heq⟩ := ht
  cases heq
  obtain ⟨written, hwritten, hholds⟩ := exists_fields columnFields (by decide) rfl hback
  simp only [List.forall_mem_cons] at hholds
  obtain ⟨hn, ht, hnull, hd, -⟩ := hholds
  rw [columnValue, readColumn?, hwritten]
  simp only [Option.bind_eq_bind, Option.bind_some, Option.pure_def,
    roundTrips_string.required hn (isReadable_string name),
    roundTrips_columnType.required ht (isReadable_of_required htype),
    roundTrips_bool.withDefault hnull ⟨.bool null, rfl⟩,
    (roundTrips_option_value 4).maybe hd (isReadable_of_maybe hdefault)]

theorem roundTrips_activeFlag : RoundTrips readActiveFlag? activeFlagValue := by
  rintro f ⟨t, ht⟩ hback
  unfold readActiveFlag? at ht
  simp only [Option.bind_eq_bind, Option.bind_eq_some_iff, Option.pure_def] at ht
  obtain ⟨fields, -, column, -, value, hvalue, heq⟩ := ht
  cases heq
  have hdefault : IsReadable (readValueAt? 3) (Value.ofNat 1) :=
    ⟨_, valueWithin?_ofNat (by decide) _⟩
  obtain ⟨written, hwritten, hholds⟩ := exists_fields activeFlagFields (by decide) rfl hback
  simp only [List.forall_mem_cons] at hholds
  obtain ⟨hc, hv, -⟩ := hholds
  rw [activeFlagValue, readActiveFlag?, hwritten]
  simp only [Option.bind_eq_bind, Option.bind_some, Option.pure_def,
    roundTrips_string.withDefault hc (isReadable_string column),
    (roundTrips_value 3).withDefault hv (isReadable_of_withDefault hdefault hvalue)]

theorem roundTrips_sort : RoundTrips readSort? sortValue := by
  rintro s - hback
  obtain ⟨written, hwritten, hholds⟩ := exists_fields sortFields (by decide) rfl hback
  simp only [List.forall_mem_cons] at hholds
  obtain ⟨hc, hd, -⟩ := hholds
  rw [sortValue, readSort?, hwritten]
  simp only [Option.bind_eq_bind, Option.bind_some, Option.pure_def,
    roundTrips_string.required hc (isReadable_string s.column),
    roundTrips_string.withDefault hd (isReadable_string s.direction)]

theorem roundTrips_rule : RoundTrips readRule? ruleValue := by
  rintro r ⟨t, ht⟩ hback
  unfold readRule? at ht
  simp only [Option.bind_eq_bind, Option.bind_eq_some_iff, Option.pure_def] at ht
  obtain ⟨fields, -, required, hrequired, format, hformat, maxLength, hmaxLength, minLength,
    hminLength, pattern, hpattern, allowed, hallowed, minimum, hminimum, maximum, hmaximum,
    heq⟩ := ht
  cases heq
  obtain ⟨written, hwritten, hholds⟩ := exists_fields ruleFields (by decide) rfl hback
  simp only [List.forall_mem_cons] at hholds
  obtain ⟨hr, hf, hmaxl, hminl, hp, ha, hmin, hmax, -⟩ := hholds
  have hnatural : RoundTrips (nullable (readNatural? maxNatural32)) (optionValue .ofNat) :=
    (roundTrips_natural (by decide)).nullable rfl
  have hstring : RoundTrips (nullable readString?) (optionValue .string) :=
    roundTrips_string.nullable rfl
  have hdouble : RoundTrips (nullable readDouble?) (optionValue doubleValue) :=
    roundTrips_double.nullable rfl
  have hvalues : RoundTrips (nullable (readList? (readValueAt? 5))) (optionValue .array) := by
    have hlist := (roundTrips_value 5).list
    simp only [List.map_id] at hlist
    exact hlist.nullable rfl
  rw [ruleValue, readRule?, hwritten]
  simp only [Option.bind_eq_bind, Option.bind_some, Option.pure_def,
    (roundTrips_bool.nullable rfl).maybe hr (isReadable_of_maybe hrequired),
    hstring.maybe hf (isReadable_of_maybe hformat),
    hnatural.maybe hmaxl (isReadable_of_maybe hmaxLength),
    hnatural.maybe hminl (isReadable_of_maybe hminLength),
    hstring.maybe hp (isReadable_of_maybe hpattern),
    hvalues.maybe ha (isReadable_of_maybe hallowed),
    hdouble.maybe hmin (isReadable_of_maybe hminimum),
    hdouble.maybe hmax (isReadable_of_maybe hmaximum)]

/-- What is read goes on with what has been read before. -/
theorem bind_eq_some {β : Type} {x : Option α} {a : α} {next : α → Option β} {b : β}
    (hx : x = some a) (h : next a = some b) : x >>= next = some b :=
  Option.bind_eq_some_iff.mpr ⟨a, hx, h⟩

theorem roundTrips_entity : RoundTrips readEntity? entityValue := by
  rintro e ⟨t, ht⟩ hback
  unfold readEntity? at ht
  obtain ⟨fields, -, ht⟩ := Option.bind_eq_some_iff.mp ht
  obtain ⟨id, -, ht⟩ := Option.bind_eq_some_iff.mp ht
  obtain ⟨schema, -, ht⟩ := Option.bind_eq_some_iff.mp ht
  obtain ⟨table, -, ht⟩ := Option.bind_eq_some_iff.mp ht
  obtain ⟨segment, -, ht⟩ := Option.bind_eq_some_iff.mp ht
  obtain ⟨key, -, ht⟩ := Option.bind_eq_some_iff.mp ht
  obtain ⟨created, -, ht⟩ := Option.bind_eq_some_iff.mp ht
  obtain ⟨updated, -, ht⟩ := Option.bind_eq_some_iff.mp ht
  obtain ⟨columns, hcolumns, ht⟩ := Option.bind_eq_some_iff.mp ht
  obtain ⟨filterable, hfilterable, ht⟩ := Option.bind_eq_some_iff.mp ht
  obtain ⟨flag, hflag, ht⟩ := Option.bind_eq_some_iff.mp ht
  obtain ⟨sort, hsort, ht⟩ := Option.bind_eq_some_iff.mp ht
  obtain ⟨aggregates, haggregates, ht⟩ := Option.bind_eq_some_iff.mp ht
  obtain ⟨operations, hoperations, ht⟩ := Option.bind_eq_some_iff.mp ht
  obtain ⟨sensitive, hsensitive, ht⟩ := Option.bind_eq_some_iff.mp ht
  obtain ⟨validation, hvalidation, ht⟩ := Option.bind_eq_some_iff.mp ht
  obtain ⟨size, hsize, ht⟩ := Option.bind_eq_some_iff.mp ht
  cases ht
  have htexts : RoundTrips (readList? readString?) Value.ofStrings := roundTrips_string.list
  have hdefaults : IsReadable (readList? readString?) defaultOperations :=
    ⟨.array (defaultOperations.map fun s => .string (some s)), rfl⟩
  have hdefaultSize : IsReadable (readNatural? maxNatural64) 25 :=
    ⟨.number (Tree.numeralOfInt 25), rfl⟩
  have hstring := isReadable_string
  obtain ⟨written, hwritten, hholds⟩ := exists_fields entityFields (by decide) rfl hback
  simp only [List.forall_mem_cons] at hholds
  obtain ⟨hid, hsch, htab, hseg, hkey, hcreated, hupdated, hcols, hfil, hact, hdef, hagg, hops,
    hsens, hval, hpage, -⟩ := hholds
  rw [entityValue, readEntity?]
  -- the members are read one after the other, in the order in which they were written
  refine bind_eq_some hwritten ?_
  refine bind_eq_some (roundTrips_string.required hid (hstring id)) ?_
  refine bind_eq_some (roundTrips_string.withDefault hsch (hstring schema) _) ?_
  refine bind_eq_some (roundTrips_string.required htab (hstring table)) ?_
  refine bind_eq_some (roundTrips_string.required hseg (hstring segment)) ?_
  refine bind_eq_some (roundTrips_string.withDefault hkey (hstring key) _) ?_
  refine bind_eq_some (roundTrips_string.withDefault hcreated (hstring created) _) ?_
  refine bind_eq_some (roundTrips_string.withDefault hupdated (hstring updated) _) ?_
  refine bind_eq_some (roundTrips_column.list.withDefault hcols
    (isReadable_of_withDefault (isReadable_list_nil _) hcolumns) _) ?_
  refine bind_eq_some (htexts.withDefault hfil
    (isReadable_of_withDefault (isReadable_list_nil _) hfilterable) _) ?_
  refine bind_eq_some ((roundTrips_activeFlag.nullable rfl).maybe hact
    (isReadable_of_maybe hflag)) ?_
  refine bind_eq_some ((roundTrips_sort.nullable rfl).maybe hdef
    (isReadable_of_maybe hsort)) ?_
  refine bind_eq_some (htexts.withDefault hagg
    (isReadable_of_withDefault (isReadable_list_nil _) haggregates) _) ?_
  refine bind_eq_some (htexts.withDefault hops
    (isReadable_of_withDefault hdefaults hoperations) _) ?_
  refine bind_eq_some (htexts.withDefault hsens
    (isReadable_of_withDefault (isReadable_list_nil _) hsensitive) _) ?_
  refine bind_eq_some (roundTrips_rule.map.withDefault hval
    (isReadable_of_withDefault (isReadable_map_nil _) hvalidation) _) ?_
  refine bind_eq_some ((roundTrips_natural (Nat.le_refl _)).withDefault hpage
    (isReadable_of_withDefault hdefaultSize hsize) _) ?_
  rfl

theorem roundTrips_relationKind :
    RoundTrips readRelationKind? fun kind => .string kind.name := by
  intro kind _ _
  cases kind <;> rfl

theorem roundTrips_relation : RoundTrips readRelation? relationValue := by
  rintro r - hback
  have hstring := isReadable_string
  have hkind : IsReadable readRelationKind? r.kind :=
    ⟨.string (some r.kind.name), by cases r.kind <;> rfl⟩
  obtain ⟨written, hwritten, hholds⟩ := exists_fields relationFields (by decide) rfl hback
  simp only [List.forall_mem_cons] at hholds
  obtain ⟨hid, hname, hfrom, hto, hk, hlocal, hforeign, -⟩ := hholds
  rw [relationValue, readRelation?, hwritten]
  simp only [Option.bind_eq_bind, Option.bind_some, Option.pure_def,
    roundTrips_string.required hid (hstring r.id),
    roundTrips_string.required hname (hstring r.name),
    roundTrips_string.required hfrom (hstring r.fromEntity),
    roundTrips_string.required hto (hstring r.toEntity),
    roundTrips_relationKind.required hk hkind,
    roundTrips_string.required hlocal (hstring r.localKey),
    roundTrips_string.required hforeign (hstring r.foreignKey)]

/-! ### Configurations -/

theorem isReadable_of_readPart {part s : String} {as : List α}
    (h : readPart part read s = .ok as) : IsReadable (readList? read) as := by
  unfold readPart at h
  split at h
  · next declarations hread =>
      cases h
      obtain ⟨t, -, ht⟩ := Option.bind_eq_some_iff.mp hread
      exact ⟨t, ht⟩
  · cases h

theorem RoundTrips.readPart (h : RoundTrips read write) {as : List α}
    (has : IsReadable (readList? read) as) (hback : (Value.array (as.map write)).ReadsBack)
    (part : String) : readPart part read (Value.array (as.map write)).text = .ok as := by
  rw [Config.readPart, readTree?_text, Option.bind_some, h.list as has hback]

end Reading

namespace Configuration

/-- The texts of a configuration: its entities and its relations as they are written. -/
def texts (c : Configuration) : String × String := (c.entitiesValue.text, c.relationsValue.text)

/-- Two texts brought to the form in which their configuration is written. -/
def normalized (entities relations : String) : Except ConfigError (String × String) :=
  (read entities relations).map texts

theorem readsBack_value {c : Configuration} :
    c.value.ReadsBack ↔ c.entitiesValue.ReadsBack ∧ c.relationsValue.ReadsBack := by
  have hvalue : c.value =
      .object [("entities", c.entitiesValue), ("relations", c.relationsValue)] :=
    rfl
  rw [hvalue, Value.readsBack_object]
  simp

theorem read_texts {entities relations : String} {c : Configuration}
    (h : read entities relations = .ok c) (hback : c.value.ReadsBack) :
    read c.texts.1 c.texts.2 = .ok c := by
  obtain ⟨hentities, hrelations⟩ := readsBack_value.mp hback
  unfold read at h
  cases he : readPart "entities" readEntity? entities with
  | error cause => rw [he] at h; cases h
  | ok es =>
      cases hr : readPart "relations" readRelation? relations with
      | error cause => rw [he, hr] at h; cases h
      | ok rs =>
          rw [he, hr] at h
          cases h
          have hes := roundTrips_entity.readPart (isReadable_of_readPart he) hentities "entities"
          have hrs :=
            roundTrips_relation.readPart (isReadable_of_readPart hr) hrelations "relations"
          unfold read texts
          dsimp only
          rw [entitiesValue, relationsValue, hes, hrs]
          rfl

/-- A configuration that was read is read again from the texts it is written as.  Bringing texts to
that form changes nothing the second time, and the same model, or the same error, comes of them. -/
theorem normalized_texts_hold_configuration (entities relations : String) (c : Configuration)
    (h : read entities relations = .ok c) (hback : ∀ x ∈ c.value.doubles, IsReadBack x) :
    (readTree? c.value.text = some (.object [(some "entities", Tree.ofValue c.entitiesValue),
        (some "relations", Tree.ofValue c.relationsValue)]) ∧
      readTree? c.texts.1 = some (Tree.ofValue c.entitiesValue) ∧
      readTree? c.texts.2 = some (Tree.ofValue c.relationsValue)) ∧
    read c.texts.1 c.texts.2 = .ok c ∧
    normalized entities relations = .ok c.texts ∧
    normalized c.texts.1 c.texts.2 = .ok c.texts ∧
    (read c.texts.1 c.texts.2).bind Model.resolve =
      (read entities relations).bind Model.resolve := by
  have hagain := read_texts h hback
  refine ⟨⟨readTree?_text c.value, readTree?_text _, readTree?_text _⟩, hagain, ?_, ?_, ?_⟩
  · rw [normalized, h]
    rfl
  · rw [normalized, hagain]
    rfl
  · rw [hagain, h]

end Configuration

namespace Notes

/-- Notes with a mark, declared with as few words as possible. -/
def entities : String :=
  "[\x7b\"id\": \"notes\", \"table\": \"notes\", \"path_segment\": \"notes\", " ++
    "\"columns\": [[\"id\", \x7b\"name\": \"varchar\", \"params\": [36]\x7d], " ++
    "\x7b\"name\": \"mark\", \"type\": \"int\"\x7d], " ++
    "\"validation\": \x7b\"mark\": \x7b\"minimum\": 1\x7d\x7d, \"active_flag\": \x7b\x7d\x7d]"

theorem normalized_texts_hold_configuration_notes :
    ∃ c, Configuration.read entities "[]" = .ok c ∧ c.value.doubles = [Double.ofInt 1] ∧
      Configuration.read c.texts.1 c.texts.2 = .ok c ∧
      Configuration.normalized c.texts.1 c.texts.2 = .ok c.texts := by
  have hread : ((Configuration.read entities "[]").toOption.map fun c => c.value.doubles) =
      some [Double.ofInt 1] := by decide +kernel
  have hback : IsReadBack (Double.ofInt 1) := by decide +kernel
  cases h : Configuration.read entities "[]" with
  | error cause =>
      rw [h] at hread
      cases hread
  | ok c =>
      rw [h] at hread
      have hdoubles : c.value.doubles = [Double.ofInt 1] := Option.some.inj hread
      obtain ⟨-, hagain, -, hnormal, -⟩ :=
        Configuration.normalized_texts_hold_configuration entities "[]" c h (by
          rw [hdoubles]
          exact List.forall_mem_singleton.mpr hback)
      exact ⟨c, rfl, hdoubles, hagain, hnormal⟩

end Notes

end EntityService.Config
