import Handrail.Js.Json

/-!
# Records as JSON

A codec writes a typed value as JSON and reads it back from any reordering of its fields. A value
may keep JSON parts of its own; `map` rewrites those parts and nothing else. The laws say what the
two rewritings, reading back from text and sorting fields, do to the written value.
-/

namespace Js

inductive Rewriting where
  /-- The part read back from its own text. -/
  | roundTrip
  /-- The part with the fields of its objects sorted. -/
  | sorted

def Rewriting.apply : Rewriting → Json → Json
  | .roundTrip => Json.roundTrip
  | .sorted => Json.canonical

structure JsonObject where
  fields : Fields
deriving Inhabited

def JsonObject.map : Rewriting → JsonObject → JsonObject
  | .roundTrip, o => ⟨o.fields.map fun field => (field.1, field.2.roundTrip)⟩
  | .sorted, o => ⟨Json.sortFields (o.fields.map fun field => (field.1, field.2.canonical))⟩

structure Codec (α : Type) where
  encode : α → Json
  decode : Json → Option α
  map : Rewriting → α → α
  /-- The objects in the JSON parts of the value have distinct field names. -/
  Intact : α → Prop
  decode_encode : ∀ a, decode (encode a) = some a
  decode_sound : ∀ {j a}, decode j = some a → j.canonical = (encode a).canonical
  decode_reordered : ∀ {j a}, j.canonical = (encode a).canonical →
    ∃ b, decode j = some b ∧ map .sorted b = map .sorted a
  encode_roundTrip : ∀ a, encode (map .roundTrip a) = (encode a).roundTrip
  encode_sorted : ∀ a, (encode (map .sorted a)).canonical = (encode a).canonical
  encode_wellFormed : ∀ {a}, Intact a → (encode a).wellFormed = true

namespace Codec
variable {α β : Type}

/-- Values that differ in the field order of their JSON parts are written alike up to field order. -/
theorem encode_congr (c : Codec α) {a b : α} (same : c.map .sorted a = c.map .sorted b) :
    (c.encode a).canonical = (c.encode b).canonical := by
  rw [← c.encode_sorted a, same, c.encode_sorted b]

/-! ### Values -/

def json : Codec Json where
  encode j := j
  decode := some
  map r := r.apply
  Intact j := j.wellFormed = true
  decode_encode _ := rfl
  decode_sound same := congrArg Json.canonical (Option.some.inj same)
  decode_reordered same := ⟨_, rfl, same⟩
  encode_roundTrip _ := rfl
  encode_sorted := Json.canonical_canonical
  encode_wellFormed intact := intact

def text (write : α → JsString) (read : JsString → Option α) (read_write : ∀ a, read (write a) = some a)
    (read_sound : ∀ {s a}, read s = some a → s = write a) : Codec α where
  encode a := .str (write a)
  decode
    | .str s => read s
    | _ => none
  map _ a := a
  Intact _ := True
  decode_encode := read_write
  decode_sound := by
    intro j a found
    split at found
    · rw [read_sound found]
    · cases found
  decode_reordered := by
    intro j a same
    obtain rfl := Json.canonical_eq_str.mp same
    exact ⟨a, read_write a, rfl⟩
  encode_roundTrip _ := rfl
  encode_sorted _ := rfl
  encode_wellFormed _ := rfl

def string : Codec JsString := text id some (fun _ => rfl) Option.some.inj

def natural : Codec Nat where
  encode n := .num (.ofNat n)
  decode
    | .num x => x.toNat?.filter fun n => JsNumber.ofNat n = x
    | _ => none
  map _ n := n
  Intact _ := True
  decode_encode n := by simp
  decode_sound := by
    intro j n found
    split at found
    · simp only [Option.filter_eq_some_iff, decide_eq_true_eq] at found
      rw [found.2]
    · cases found
  decode_reordered := by
    intro j n same
    obtain rfl := Json.canonical_eq_num.mp same
    exact ⟨n, by simp, rfl⟩
  encode_roundTrip n := by simp
  encode_sorted _ := rfl
  encode_wellFormed _ := rfl

def number : Codec JsNumber where
  encode := .num
  decode
    | .num x => some x
    | _ => none
  map
    | .roundTrip => JsNumber.roundTrip
    | .sorted => id
  Intact _ := True
  decode_encode _ := rfl
  decode_sound := by
    intro j x found
    split at found
    · rw [Option.some.inj found]
    · cases found
  decode_reordered := by
    intro j x same
    obtain rfl := Json.canonical_eq_num.mp same
    exact ⟨x, rfl, rfl⟩
  encode_roundTrip _ := rfl
  encode_sorted _ := rfl
  encode_wellFormed _ := rfl

def boolean : Codec Bool where
  encode := .bool
  decode
    | .bool b => some b
    | _ => none
  map _ b := b
  Intact _ := True
  decode_encode _ := rfl
  decode_sound := by
    intro j b found
    split at found
    · rw [Option.some.inj found]
    · cases found
  decode_reordered := by
    intro j b same
    obtain rfl := Json.canonical_eq_bool.mp same
    exact ⟨b, rfl, rfl⟩
  encode_roundTrip _ := rfl
  encode_sorted _ := rfl
  encode_wellFormed _ := rfl

def jsonObject : Codec JsonObject where
  encode o := .obj o.fields
  decode
    | .obj fields => some ⟨fields⟩
    | _ => none
  map := JsonObject.map
  Intact o := (Json.obj o.fields).wellFormed = true
  decode_encode _ := rfl
  decode_sound := by
    intro j o found
    split at found
    · rw [← Option.some.inj found]
    · cases found
  decode_reordered := by
    intro j o same
    obtain ⟨fields, rfl⟩ := Json.canonical_eq_canonical_obj same
    rw [Json.canonical_obj, Json.canonical_obj, Json.obj.injEq] at same
    exact ⟨⟨fields⟩, rfl, congrArg JsonObject.mk same⟩
  encode_roundTrip o := (Json.roundTrip_obj o.fields).symm
  encode_sorted o := by
    have sorted := Json.canonical_canonical (.obj o.fields)
    rwa [Json.canonical_obj o.fields] at sorted ⊢
  encode_wellFormed intact := intact

/-- A value or `null`. -/
def nullable (c : Codec α) (notNull : ∀ a, c.encode a ≠ .null) : Codec (Option α) where
  encode a := a.elim .null c.encode
  decode
    | .null => some none
    | j => (c.decode j).map some
  map r a := a.map (c.map r)
  Intact a := ∀ x ∈ a, c.Intact x
  decode_encode a := by
    cases a with
    | none => rfl
    | some a =>
      have given := notNull a
      simp only [Option.elim]
      rw [c.decode_encode, Option.map_some]
  decode_sound := by
    intro j a found
    split at found
    · rw [← Option.some.inj found]
      rfl
    · obtain ⟨b, read, rfl⟩ := Option.map_eq_some_iff.mp found
      exact c.decode_sound read
  decode_reordered := by
    intro j a same
    cases a with
    | none =>
      obtain rfl := Json.canonical_eq_null.mp same
      exact ⟨none, rfl, rfl⟩
    | some a =>
      obtain ⟨b, read, sorted⟩ := c.decode_reordered same
      refine ⟨some b, ?_, congrArg some sorted⟩
      split
      · have null := Json.canonical_eq_null.mp same.symm
        exact (notNull a null).elim
      · simp [read]
  encode_roundTrip a := by
    cases a with
    | none => rfl
    | some a => exact c.encode_roundTrip a
  encode_sorted a := by
    cases a with
    | none => rfl
    | some a => exact c.encode_sorted a
  encode_wellFormed {a} intact := by
    cases a with
    | none => rfl
    | some a => exact c.encode_wellFormed (intact a rfl)

def list (c : Codec α) : Codec (List α) where
  encode values := .arr (values.map c.encode)
  decode
    | .arr items => items.mapM c.decode
    | _ => none
  map r values := values.map (c.map r)
  Intact values := ∀ a ∈ values, c.Intact a
  decode_encode values := by
    induction values with
    | nil => rfl
    | cons a rest ih => simp_all [List.mapM_cons, c.decode_encode]
  decode_sound := by
    intro j values found
    split at found
    · rename_i items
      simp only [Json.canonical_arr, Json.arr.injEq, List.map_map]
      induction items generalizing values with
      | nil => simp_all
      | cons item rest ih =>
        simp only [List.mapM_cons, Option.bind_eq_bind, Option.pure_def, Option.bind_eq_some_iff,
          Option.some.injEq] at found
        obtain ⟨a, first, others, each, rfl⟩ := found
        simp [c.decode_sound first, ih each]
    · cases found
  decode_reordered := by
    intro j values same
    rw [Json.canonical_arr] at same
    obtain ⟨items, rfl, listed⟩ := Json.canonical_eq_arr.mp same
    clear same
    simp only
    induction values generalizing items with
    | nil => exact ⟨[], by simp_all⟩
    | cons a rest ih =>
      cases items with
      | nil => cases listed
      | cons item items =>
        simp only [List.map_cons, List.cons.injEq] at listed
        obtain ⟨b, first, sorted⟩ := c.decode_reordered listed.1
        obtain ⟨others, each, sorteds⟩ := ih items listed.2
        exact ⟨b :: others, by simp [List.mapM_cons, first, each], by simp_all⟩
  encode_roundTrip values := by simp [c.encode_roundTrip]
  encode_sorted values := by simp [Json.canonical_arr, c.encode_sorted]
  encode_wellFormed {values} intact := by
    rw [Json.wellFormed_arr, List.forall_mem_map]
    exact fun a member => c.encode_wellFormed (intact a member)

def equiv (c : Codec α) (out : β → α) (back : α → β) (back_out : ∀ b, back (out b) = b)
    (out_back : ∀ a, out (back a) = a) : Codec β where
  encode b := c.encode (out b)
  decode j := (c.decode j).map back
  map r b := back (c.map r (out b))
  Intact b := c.Intact (out b)
  decode_encode b := by simp [c.decode_encode, back_out]
  decode_sound := by
    intro j b found
    obtain ⟨a, read, rfl⟩ := Option.map_eq_some_iff.mp found
    rw [out_back]
    exact c.decode_sound read
  decode_reordered := by
    intro j b same
    obtain ⟨a, read, sorted⟩ := c.decode_reordered same
    exact ⟨back a, by simp [read], by rw [out_back, sorted]⟩
  encode_roundTrip b := by rw [out_back, c.encode_roundTrip]
  encode_sorted b := by rw [out_back, c.encode_sorted]
  encode_wellFormed intact := c.encode_wellFormed intact

def either (c : Codec α) (d : Codec β)
    (apart : ∀ {j b}, j.canonical = (d.encode b).canonical → c.decode j = none) : Codec (α ⊕ β) where
  encode
    | .inl a => c.encode a
    | .inr b => d.encode b
  decode j := match c.decode j with
    | some a => some (.inl a)
    | none => (d.decode j).map .inr
  map r
    | .inl a => .inl (c.map r a)
    | .inr b => .inr (d.map r b)
  Intact
    | .inl a => c.Intact a
    | .inr b => d.Intact b
  decode_encode
    | .inl a => by simp [c.decode_encode]
    | .inr b => by simp [d.decode_encode, apart rfl]
  decode_sound := by
    intro j x found
    split at found
    · rename_i read
      rw [← Option.some.inj found]
      exact c.decode_sound read
    · obtain ⟨b, read, rfl⟩ := Option.map_eq_some_iff.mp found
      exact d.decode_sound read
  decode_reordered := by
    intro j x same
    cases x with
    | inl a =>
      obtain ⟨b, read, sorted⟩ := c.decode_reordered same
      exact ⟨.inl b, by simp [read], by simp [sorted]⟩
    | inr a =>
      obtain ⟨b, read, sorted⟩ := d.decode_reordered same
      exact ⟨.inr b, by simp [read, apart same], by simp [sorted]⟩
  encode_roundTrip
    | .inl a => c.encode_roundTrip a
    | .inr b => d.encode_roundTrip b
  encode_sorted
    | .inl a => c.encode_sorted a
    | .inr b => d.encode_sorted b
  encode_wellFormed {x} intact := by
    cases x with
    | inl a => exact c.encode_wellFormed intact
    | inr b => exact d.encode_wellFormed intact

@[simp] theorem string_encode (text : JsString) : string.encode text = .str text := rfl

@[simp] theorem natural_encode (n : Nat) : natural.encode n = .num (.ofNat n) := rfl

@[simp] theorem number_encode (x : JsNumber) : number.encode x = .num x := rfl

@[simp] theorem boolean_encode (b : Bool) : boolean.encode b = .bool b := rfl

@[simp] theorem json_encode (j : Json) : json.encode j = j := rfl

@[simp] theorem jsonObject_encode (o : JsonObject) : jsonObject.encode o = .obj o.fields := rfl

theorem string_ne_null (text : JsString) : string.encode text ≠ .null := nofun

theorem natural_ne_null (n : Nat) : natural.encode n ≠ .null := nofun

theorem jsonObject_ne_null (o : JsonObject) : jsonObject.encode o ≠ .null := nofun

@[simp] theorem list_encode (c : Codec α) (values : List α) : c.list.encode values = .arr (values.map c.encode) := rfl

@[simp] theorem nullable_encode (c : Codec α) (notNull : ∀ a, c.encode a ≠ .null) (a : Option α) :
    (c.nullable notNull).encode a = a.elim .null c.encode := rfl

end Codec

/-! ### Objects -/

/-- The fields of an object that holds a value of `α`, in the order in which they are written. -/
structure Shape (α : Type) where
  encode : α → List (String × Json)
  decode : Fields → Option α
  map : Rewriting → α → α
  Intact : α → Prop
  keys : List String
  keys_nodup : keys.Nodup
  encode_keys : ∀ a, ((encode a).map Prod.fst).Sublist keys
  decode_of_get : ∀ {f a}, (∀ key ∈ keys, Json.get f key = (encode a).lookup key) → decode f = some a
  decode_sound : ∀ {f a}, decode f = some a → ∀ key ∈ keys,
    (Json.get f key).map Json.canonical = ((encode a).lookup key).map Json.canonical
  decode_reordered : ∀ {f a}, (∀ key ∈ keys,
    (Json.get f key).map Json.canonical = ((encode a).lookup key).map Json.canonical) →
    ∃ b, decode f = some b ∧ map .sorted b = map .sorted a
  encode_roundTrip : ∀ a, encode (map .roundTrip a) =
    (encode a).map fun field => (field.1, field.2.roundTrip)
  encode_sorted : ∀ a, (encode (map .sorted a)).map (fun field => (field.1, field.2.canonical)) =
    (encode a).map fun field => (field.1, field.2.canonical)
  encode_wellFormed : ∀ {a}, Intact a → ∀ field ∈ encode a, field.2.wellFormed = true

namespace Shape
variable {α β : Type}

def nil : Shape Unit where
  encode _ := []
  decode _ := some ()
  map _ _ := ()
  Intact _ := True
  keys := []
  keys_nodup := List.nodup_nil
  encode_keys _ := List.Sublist.slnil
  decode_of_get _ := rfl
  decode_sound := by simp
  decode_reordered _ := ⟨(), rfl, rfl⟩
  encode_roundTrip _ := rfl
  encode_sorted _ := rfl
  encode_wellFormed _ := by simp

theorem fresh_nil (key : String) : key ∉ nil.keys := List.not_mem_nil

theorem lookup_of_fresh (s : Shape α) {key : String} (fresh : key ∉ s.keys) (a : α) :
    (s.encode a).lookup key = none := by
  rw [List.lookup_eq_none_iff]
  intro field member
  have known := (s.encode_keys a).subset (List.mem_map_of_mem member)
  rw [bne_iff_ne]
  rintro rfl
  exact fresh known

/-- A field that is always there, before the fields of `s`. -/
def required (key : String) (c : Codec α) (s : Shape β) (fresh : key ∉ s.keys := by decide) :
    Shape (α × β) where
  encode p := (key, c.encode p.1) :: s.encode p.2
  decode fields := do
    let a ← c.decode (← Json.get fields key)
    let b ← s.decode fields
    some (a, b)
  map r p := (c.map r p.1, s.map r p.2)
  Intact p := c.Intact p.1 ∧ s.Intact p.2
  keys := key :: s.keys
  keys_nodup := List.nodup_cons.mpr ⟨fresh, s.keys_nodup⟩
  encode_keys p := (s.encode_keys p.2).cons_cons key
  decode_of_get := by
    intro fields p same
    rw [List.forall_mem_cons] at same
    have rest := s.decode_of_get (f := fields) (a := p.2) fun other member => by
      have different : other ≠ key := fun same => fresh (same ▸ member)
      rw [same.2 other member, List.lookup_cons, beq_eq_false_iff_ne.mpr different]
    rw [List.lookup_cons, beq_self_eq_true] at same
    simp [same.1, c.decode_encode, rest]
  decode_sound := by
    rintro fields ⟨a, b⟩ found
    simp only [Option.bind_eq_bind, Option.bind_eq_some_iff, Option.some.injEq] at found
    obtain ⟨j, got, a', first, b', rest, same⟩ := found
    cases same
    rw [List.forall_mem_cons]
    constructor
    · simp [got, c.decode_sound first]
    · intro other member
      have different : other ≠ key := fun same => fresh (same ▸ member)
      rw [List.lookup_cons, beq_eq_false_iff_ne.mpr different]
      exact s.decode_sound rest other member
  decode_reordered := by
    rintro fields ⟨a, b⟩ same
    rw [List.forall_mem_cons] at same
    have rest := s.decode_reordered (f := fields) (a := b) fun other member => by
      have different : other ≠ key := fun same => fresh (same ▸ member)
      rw [same.2 other member, List.lookup_cons, beq_eq_false_iff_ne.mpr different]
    have first := same.1
    simp only [List.lookup_cons, beq_self_eq_true, Option.map_some, Option.map_eq_some_iff] at first
    obtain ⟨j, got, canonical⟩ := first
    obtain ⟨a', read, sorted⟩ := c.decode_reordered canonical
    obtain ⟨b', others, sorteds⟩ := rest
    exact ⟨(a', b'), by simp [got, read, others], by rw [sorted, sorteds]⟩
  encode_roundTrip p := by simp [c.encode_roundTrip, s.encode_roundTrip]
  encode_sorted p := by simp [c.encode_sorted, s.encode_sorted]
  encode_wellFormed {p} intact := by
    rw [List.forall_mem_cons]
    exact ⟨c.encode_wellFormed intact.1, s.encode_wellFormed intact.2⟩

/-- An absent field is `none`. -/
def readOptional (c : Codec α) : Option Json → Option (Option α)
  | none => some none
  | some j => (c.decode j).map some

/-- A field that is left out for `none`, before the fields of `s`. -/
def optional (key : String) (c : Codec α) (s : Shape β) (fresh : key ∉ s.keys := by decide) :
    Shape (Option α × β) where
  encode p := (p.1.elim [] fun a => [(key, c.encode a)]) ++ s.encode p.2
  decode fields := do
    let a ← readOptional c (Json.get fields key)
    let b ← s.decode fields
    some (a, b)
  map r p := (p.1.map (c.map r), s.map r p.2)
  Intact p := (∀ a ∈ p.1, c.Intact a) ∧ s.Intact p.2
  keys := key :: s.keys
  keys_nodup := List.nodup_cons.mpr ⟨fresh, s.keys_nodup⟩
  encode_keys p := by
    cases p.1 with
    | none => exact (s.encode_keys p.2).cons key
    | some a => exact (s.encode_keys p.2).cons_cons key
  decode_of_get := by
    rintro fields ⟨a, b⟩ same
    rw [List.forall_mem_cons] at same
    have rest := s.decode_of_get (f := fields) (a := b) fun other member => by
      have different : other ≠ key := fun same => fresh (same ▸ member)
      rw [same.2 other member]
      cases a <;> simp [List.lookup_cons, beq_eq_false_iff_ne.mpr different]
    cases a with
    | none =>
      have absent := same.1
      simp only [Option.elim, List.nil_append, s.lookup_of_fresh fresh] at absent
      simp [readOptional, absent, rest]
    | some a =>
      have got := same.1
      simp only [Option.elim, List.cons_append, List.nil_append, List.lookup_cons, beq_self_eq_true] at got
      simp [readOptional, got, c.decode_encode, rest]
  decode_sound := by
    rintro fields ⟨a, b⟩ found
    simp only [Option.bind_eq_bind, Option.bind_eq_some_iff, Option.some.injEq] at found
    obtain ⟨a', first, b', rest, same⟩ := found
    cases same
    have others : ∀ other ∈ s.keys, (Json.get fields other).map Json.canonical =
        (((a.elim [] fun a => [(key, c.encode a)]) ++ s.encode b).lookup other).map Json.canonical := by
      intro other member
      have different : other ≠ key := fun same => fresh (same ▸ member)
      rw [s.decode_sound rest other member]
      cases a <;> simp [List.lookup_cons, beq_eq_false_iff_ne.mpr different]
    rw [List.forall_mem_cons]
    refine ⟨?_, others⟩
    cases got : Json.get fields key with
    | none =>
      rw [got, readOptional] at first
      cases first
      simp [s.lookup_of_fresh fresh]
    | some j =>
      rw [got, readOptional] at first
      obtain ⟨a', read, rfl⟩ := Option.map_eq_some_iff.mp first
      simp [c.decode_sound read]
  decode_reordered := by
    rintro fields ⟨a, b⟩ same
    rw [List.forall_mem_cons] at same
    obtain ⟨b', rest, sorteds⟩ := s.decode_reordered (f := fields) (a := b) fun other member => by
      have different : other ≠ key := fun same => fresh (same ▸ member)
      rw [same.2 other member]
      cases a <;> simp [List.lookup_cons, beq_eq_false_iff_ne.mpr different]
    cases a with
    | none =>
      have absent := same.1
      simp only [Option.elim, List.nil_append, s.lookup_of_fresh fresh, Option.map_none,
        Option.map_eq_none_iff] at absent
      exact ⟨(none, b'), by simp [readOptional, absent, rest], by simp [sorteds]⟩
    | some a =>
      have first := same.1
      simp only [Option.elim, List.cons_append, List.lookup_cons, beq_self_eq_true, Option.map_some,
        Option.map_eq_some_iff] at first
      obtain ⟨j, got, canonical⟩ := first
      obtain ⟨a', read, sorted⟩ := c.decode_reordered canonical
      exact ⟨(some a', b'), by simp [readOptional, got, read, rest], by simp [sorted, sorteds]⟩
  encode_roundTrip p := by
    cases p.1 with
    | none => simp [s.encode_roundTrip]
    | some a => simp [c.encode_roundTrip, s.encode_roundTrip]
  encode_sorted p := by
    cases p.1 with
    | none => simp [s.encode_sorted]
    | some a => simp [c.encode_sorted, s.encode_sorted]
  encode_wellFormed := by
    rintro ⟨a, b⟩ intact
    rw [List.forall_mem_append]
    refine ⟨?_, s.encode_wellFormed intact.2⟩
    cases a with
    | none => simp
    | some a => simpa using c.encode_wellFormed (intact.1 a rfl)

/-- A field with the same string in every object, before the fields of `s`. -/
def tag (key value : String) (s : Shape α) (fresh : key ∉ s.keys := by decide) : Shape α where
  encode a := (key, .str (js value)) :: s.encode a
  decode fields := match Json.get fields key with
    | some (.str text) => if text = js value then s.decode fields else none
    | _ => none
  map := s.map
  Intact := s.Intact
  keys := key :: s.keys
  keys_nodup := List.nodup_cons.mpr ⟨fresh, s.keys_nodup⟩
  encode_keys a := (s.encode_keys a).cons_cons key
  decode_of_get := by
    intro fields a same
    rw [List.forall_mem_cons] at same
    have rest := s.decode_of_get (f := fields) (a := a) fun other member => by
      have different : other ≠ key := fun same => fresh (same ▸ member)
      rw [same.2 other member, List.lookup_cons, beq_eq_false_iff_ne.mpr different]
    rw [List.lookup_cons, beq_self_eq_true] at same
    simp [same.1, rest]
  decode_sound := by
    intro fields a found
    split at found
    · rename_i text got
      split at found
      · rename_i same
        rw [List.forall_mem_cons]
        refine ⟨by simp [got, same], fun other member => ?_⟩
        have different : other ≠ key := fun same => fresh (same ▸ member)
        rw [List.lookup_cons, beq_eq_false_iff_ne.mpr different]
        exact s.decode_sound found other member
      · cases found
    · cases found
  decode_reordered := by
    intro fields a same
    rw [List.forall_mem_cons] at same
    have rest := s.decode_reordered (f := fields) (a := a) fun other member => by
      have different : other ≠ key := fun same => fresh (same ▸ member)
      rw [same.2 other member, List.lookup_cons, beq_eq_false_iff_ne.mpr different]
    have first := same.1
    simp only [List.lookup_cons, beq_self_eq_true, Option.map_some, Option.map_eq_some_iff] at first
    obtain ⟨j, got, canonical⟩ := first
    obtain rfl := Json.canonical_eq_str.mp canonical
    simpa [got] using rest
  encode_roundTrip a := by simp [s.encode_roundTrip]
  encode_sorted a := by simp [s.encode_sorted]
  encode_wellFormed intact := by
    rw [List.forall_mem_cons]
    exact ⟨rfl, s.encode_wellFormed intact⟩

def equiv (s : Shape α) (out : β → α) (back : α → β) (back_out : ∀ b, back (out b) = b)
    (out_back : ∀ a, out (back a) = a) : Shape β where
  encode b := s.encode (out b)
  decode fields := (s.decode fields).map back
  map r b := back (s.map r (out b))
  Intact b := s.Intact (out b)
  keys := s.keys
  keys_nodup := s.keys_nodup
  encode_keys b := s.encode_keys (out b)
  decode_of_get same := by simp [s.decode_of_get same, back_out]
  decode_sound := by
    intro fields b found
    obtain ⟨a, read, rfl⟩ := Option.map_eq_some_iff.mp found
    rw [out_back]
    exact s.decode_sound read
  decode_reordered := by
    intro fields b same
    obtain ⟨a, read, sorted⟩ := s.decode_reordered same
    exact ⟨back a, by simp [read], by rw [out_back, sorted]⟩
  encode_roundTrip b := by rw [out_back, s.encode_roundTrip]
  encode_sorted b := by rw [out_back, s.encode_sorted]
  encode_wellFormed intact := s.encode_wellFormed intact

section Lookup
variable {key other : String} {c : Codec α} {s : Shape β}

@[simp] theorem lookup_required {fresh : key ∉ s.keys} (p : α × β) :
    ((required key c s fresh).encode p).lookup key = some (c.encode p.1) := by
  simp [required]

@[simp] theorem lookup_required_ne {fresh : key ∉ s.keys} (different : other ≠ key) (p : α × β) :
    ((required key c s fresh).encode p).lookup other = (s.encode p.2).lookup other := by
  simp [required, List.lookup_cons, beq_eq_false_iff_ne.mpr different]

@[simp] theorem lookup_optional {fresh : key ∉ s.keys} (p : Option α × β) :
    ((optional key c s fresh).encode p).lookup key = p.1.map c.encode := by
  obtain ⟨a, b⟩ := p
  cases a with
  | none => exact s.lookup_of_fresh fresh b
  | some a => simp [optional]

@[simp] theorem lookup_optional_ne {fresh : key ∉ s.keys} (different : other ≠ key) (p : Option α × β) :
    ((optional key c s fresh).encode p).lookup other = (s.encode p.2).lookup other := by
  obtain ⟨a, b⟩ := p
  cases a <;> simp [optional, List.lookup_cons, beq_eq_false_iff_ne.mpr different]

@[simp] theorem lookup_tag {value : String} {fresh : key ∉ s.keys} (b : β) :
    ((tag key value s fresh).encode b).lookup key = some (.str (js value)) := by
  simp [tag]

@[simp] theorem lookup_tag_ne {value : String} {fresh : key ∉ s.keys} (different : other ≠ key) (b : β) :
    ((tag key value s fresh).encode b).lookup other = (s.encode b).lookup other := by
  simp [tag, List.lookup_cons, beq_eq_false_iff_ne.mpr different]

@[simp] theorem encode_equiv {out : α → β} {back : β → α} {back_out : ∀ a, back (out a) = a}
    {out_back : ∀ b, out (back b) = b} (a : α) :
    (s.equiv out back back_out out_back).encode a = s.encode (out a) := rfl

end Lookup

theorem keys_encode_nodup (s : Shape α) (a : α) : (Json.keys (Json.fieldsOf (s.encode a))).Nodup := by
  have names : Json.keys (Json.fieldsOf (s.encode a)) = ((s.encode a).map Prod.fst).map js := by
    simp [Json.keys, Json.fieldsOf, Function.comp_def]
  rw [names]
  exact ((s.encode_keys a).nodup s.keys_nodup).map fun _ _ => js_inj.mp

theorem mem_keys_encode (s : Shape α) {a : α} {key : JsString}
    (member : key ∈ Json.keys (Json.fieldsOf (s.encode a))) : ∃ known ∈ s.keys, js known = key := by
  simp only [Json.keys, Json.fieldsOf, List.map_map, List.mem_map] at member
  obtain ⟨field, inside, rfl⟩ := member
  exact ⟨field.1, (s.encode_keys a).subset (List.mem_map_of_mem inside), rfl⟩

end Shape

def Codec.object {α : Type} (s : Shape α) : Codec α where
  encode a := Json.object (s.encode a)
  decode
    | .obj fields =>
      if (Json.keys fields).Nodup ∧ ∀ key ∈ Json.keys fields, ∃ known ∈ s.keys, js known = key then
        s.decode fields
      else none
    | _ => none
  map := s.map
  Intact := s.Intact
  decode_encode a := by
    have accepted : (Json.keys (Json.fieldsOf (s.encode a))).Nodup ∧
        ∀ key ∈ Json.keys (Json.fieldsOf (s.encode a)), ∃ known ∈ s.keys, js known = key :=
      ⟨s.keys_encode_nodup a, fun key => s.mem_keys_encode⟩
    simp only [Json.object]
    rw [if_pos accepted]
    exact s.decode_of_get fun key _ => Json.get_fieldsOf _ key
  decode_sound := by
    intro j a found
    split at found
    · rename_i fields
      split at found
      · rename_i accepted
        refine Json.canonical_obj_ext accepted.1 (s.keys_encode_nodup a) fun key => ?_
        by_cases known : ∃ name ∈ s.keys, js name = key
        · obtain ⟨name, member, rfl⟩ := known
          have same := s.decode_sound found name member
          rw [← Json.get_fieldsOf] at same
          exact same
        · have absent {fs : Fields} (only : ∀ key ∈ Json.keys fs, ∃ name ∈ s.keys, js name = key) :
              fs.lookup key = none := by
            rw [← Option.not_isSome_iff_eq_none, Json.lookup_isSome_iff]
            exact fun member => known (only key member)
          rw [absent accepted.2, absent fun key => s.mem_keys_encode]
      · cases found
    · cases found
  decode_reordered := by
    intro j a same
    obtain ⟨fields, rfl⟩ := Json.canonical_eq_canonical_obj same
    have distinct := s.keys_encode_nodup a
    have perm := Json.canonical_keys distinct same.symm
    have accepted : (Json.keys fields).Nodup ∧
        ∀ key ∈ Json.keys fields, ∃ known ∈ s.keys, js known = key :=
      ⟨perm.nodup_iff.mp distinct, fun key member => s.mem_keys_encode (perm.mem_iff.mpr member)⟩
    simp only
    rw [if_pos accepted]
    refine s.decode_reordered fun key _ => ?_
    rw [← Json.get_fieldsOf]
    exact Json.canonical_get accepted.1 same distinct (js key)
  encode_roundTrip a := by simp [s.encode_roundTrip]
  encode_sorted a := by
    have values := congrArg (List.map fun field => (js field.1, field.2)) (s.encode_sorted a)
    simp only [List.map_map] at values
    rw [Json.object, Json.object, Json.canonical_obj, Json.canonical_obj]
    simp only [Json.fieldsOf, List.map_map]
    exact congrArg (fun fields => Json.obj (Json.sortFields fields)) values
  encode_wellFormed {a} intact := by
    rw [Json.object, Json.wellFormed_obj]
    refine ⟨s.keys_encode_nodup a, ?_⟩
    rw [Json.fieldsOf, List.forall_mem_map]
    exact s.encode_wellFormed intact

theorem Codec.tag_apart {α β : Type} {s : Shape α} {t : Shape β} {key value value' : String}
    {fresh : key ∉ s.keys} {fresh' : key ∉ t.keys} (different : value ≠ value') {j : Json} {b : β}
    (same : j.canonical = ((Codec.object (Shape.tag key value' t fresh')).encode b).canonical) :
    (Codec.object (Shape.tag key value s fresh)).decode j = none := by
  obtain ⟨fields, rfl⟩ := Json.canonical_eq_canonical_obj same
  have distinct := (Shape.tag key value' t fresh').keys_encode_nodup b
  have names := Json.canonical_keys distinct same.symm
  have text := Json.canonical_get (names.nodup_iff.mp distinct) same distinct (js key)
  have written : (Json.fieldsOf ((Shape.tag key value' t fresh').encode b)).lookup (js key) =
      some (.str (js value')) := by
    simp [Shape.tag, Json.fieldsOf]
  rw [written, Option.map_some] at text
  obtain ⟨found, got, text⟩ := Option.map_eq_some_iff.mp text
  obtain rfl := Json.canonical_eq_str.mp text
  simp only [Codec.object, Shape.tag, Json.get, got, js_inj]
  rw [if_neg (Ne.symm different), ite_self]

/-! ### Values without JSON parts -/

class Codec.Leafless {α : Type} (c : Codec α) : Prop where
  map_eq : ∀ r a, c.map r a = a
  intact : ∀ a, c.Intact a

class Shape.Leafless {α : Type} (s : Shape α) : Prop where
  map_eq : ∀ r a, s.map r a = a
  intact : ∀ a, s.Intact a

attribute [simp] Codec.Leafless.map_eq

section
variable {α β : Type}

instance : Codec.string.Leafless := ⟨fun _ _ => rfl, fun _ => trivial⟩

instance : Codec.natural.Leafless := ⟨fun _ _ => rfl, fun _ => trivial⟩

instance : Codec.boolean.Leafless := ⟨fun _ _ => rfl, fun _ => trivial⟩

instance (c : Codec α) (notNull : ∀ a, c.encode a ≠ .null) [c.Leafless] : (c.nullable notNull).Leafless where
  map_eq r a := by cases a <;> simp [Codec.nullable]
  intact _ x _ := Codec.Leafless.intact x

instance (c : Codec α) [c.Leafless] : c.list.Leafless where
  map_eq r values := by
    rw [show c.list.map r values = values.map (c.map r) from rfl, funext (Codec.Leafless.map_eq r)]
    exact List.map_id' values
  intact _ x _ := Codec.Leafless.intact x

instance (c : Codec α) [c.Leafless] (out : β → α) (back : α → β) (back_out : ∀ b, back (out b) = b)
    (out_back : ∀ a, out (back a) = a) : (c.equiv out back back_out out_back).Leafless where
  map_eq r b := by simp [Codec.equiv, back_out]
  intact b := Codec.Leafless.intact (c := c) (out b)

instance (c : Codec α) (d : Codec β) [c.Leafless] [d.Leafless]
    (apart : ∀ {j b}, j.canonical = (d.encode b).canonical → c.decode j = none) :
    (Codec.either c d @apart).Leafless where
  map_eq r x := by cases x <;> simp [Codec.either]
  intact x := by
    cases x with
    | inl a => exact Codec.Leafless.intact (c := c) a
    | inr b => exact Codec.Leafless.intact (c := d) b

instance (s : Shape α) [s.Leafless] : (Codec.object s).Leafless := ⟨Shape.Leafless.map_eq, Shape.Leafless.intact⟩

instance : Shape.nil.Leafless := ⟨fun _ _ => rfl, fun _ => trivial⟩

instance (key : String) (c : Codec α) (s : Shape β) (fresh : key ∉ s.keys) [c.Leafless] [s.Leafless] :
    (Shape.required key c s fresh).Leafless where
  map_eq r p := by simp [Shape.required, Shape.Leafless.map_eq]
  intact p := ⟨Codec.Leafless.intact p.1, Shape.Leafless.intact p.2⟩

instance (key : String) (c : Codec α) (s : Shape β) (fresh : key ∉ s.keys) [c.Leafless] [s.Leafless] :
    (Shape.optional key c s fresh).Leafless where
  map_eq r p := by
    obtain ⟨a, b⟩ := p
    cases a <;> simp [Shape.optional, Shape.Leafless.map_eq]
  intact p := ⟨fun a _ => Codec.Leafless.intact a, Shape.Leafless.intact p.2⟩

instance (key value : String) (s : Shape α) (fresh : key ∉ s.keys) [s.Leafless] :
    (Shape.tag key value s fresh).Leafless :=
  ⟨Shape.Leafless.map_eq (s := s), Shape.Leafless.intact (s := s)⟩

instance (s : Shape α) [s.Leafless] (out : β → α) (back : α → β) (back_out : ∀ b, back (out b) = b)
    (out_back : ∀ a, out (back a) = a) : (s.equiv out back back_out out_back).Leafless where
  map_eq r b := by simp [Shape.equiv, Shape.Leafless.map_eq, back_out]
  intact b := Shape.Leafless.intact (s := s) (out b)

end

/-! ### Retained values -/

def Codec.Plain {α : Type} (c : Codec α) : Prop := ∀ a, c.map .sorted a = a

structure Retained {α : Type} (c : Codec α) where
  json : Json
  record : α
  reads : c.decode json = some record

namespace Retained
variable {α : Type} {c : Codec α}

def write (c : Codec α) (a : α) : Retained c := ⟨c.encode a, a, c.decode_encode a⟩

theorem ext {x y : Retained c} (same : x.json = y.json) : x = y := by
  obtain ⟨json, record, reads⟩ := x
  obtain ⟨json', record', reads'⟩ := y
  obtain rfl : json = json' := same
  obtain rfl : record = record' := Option.some.inj (reads.symm.trans reads')
  rfl

theorem json_canonical (x : Retained c) : x.json.canonical = (c.encode x.record).canonical :=
  c.decode_sound x.reads

theorem reads_of_canonical (plain : c.Plain) {j : Json} {a : α}
    (same : j.canonical = (c.encode a).canonical) : c.decode j = some a := by
  obtain ⟨b, read, sorted⟩ := c.decode_reordered same
  rw [plain, plain] at sorted
  rw [read, sorted]

theorem reads_roundTrip (plain : c.Plain) (x : Retained c) :
    c.decode x.json.roundTrip = some (c.map .roundTrip x.record) := by
  apply reads_of_canonical plain
  rw [c.encode_roundTrip, Json.canonical_roundTrip, Json.canonical_roundTrip, x.json_canonical]

def map (plain : c.Plain) : Rewriting → Retained c → Retained c
  | .roundTrip, x => ⟨x.json.roundTrip, c.map .roundTrip x.record, x.reads_roundTrip plain⟩
  | .sorted, x => write c x.record

@[simp] theorem map_record (plain : c.Plain) (r : Rewriting) (x : Retained c) :
    (x.map plain r).record = c.map r x.record := by
  cases r with
  | roundTrip => rfl
  | sorted => exact (plain x.record).symm

end Retained

def Codec.retained {α : Type} (c : Codec α) (plain : c.Plain) : Codec (Retained c) where
  encode x := x.json
  decode j := match read : c.decode j with
    | some a => some ⟨j, a, read⟩
    | none => none
  map := Retained.map plain
  Intact x := x.json.wellFormed = true
  decode_encode x := by
    obtain ⟨json, record, reads⟩ := x
    simp only
    split
    · exact congrArg some (Retained.ext rfl)
    · rename_i none
      rw [reads] at none
      cases none
  decode_sound := by
    intro j x found
    split at found
    · rw [← Option.some.inj found]
    · cases found
  decode_reordered := by
    intro j x same
    have read := Retained.reads_of_canonical plain (same.trans x.json_canonical)
    refine ⟨⟨j, x.record, read⟩, ?_, rfl⟩
    split
    · exact congrArg some (Retained.ext rfl)
    · rename_i none
      rw [read] at none
      cases none
  encode_roundTrip _ := rfl
  encode_sorted x := x.json_canonical.symm
  encode_wellFormed intact := intact

end Js
