import BringUp.Record.Field

/-!
This module contains how records are read whose fields are not all given. The main statement is that
every field is set to what was given for it, or else to what it is where it is not given.
-/

namespace BringUp.Record

variable {ρ α : Type}

def members (fields : List (Field Json ρ)) (r : ρ) : List (String × Json) :=
  fields.map fun f => (f.name, f.write r)

/--
Whether members are some given ones, except those left out, in any order and among any that have
other names.
-/
def Partly (absent : String → Bool) (given members : List (String × Json)) : Prop :=
  (members.filter (·.1 ∈ given.map Prod.fst)).Perm (given.filter fun m => !absent m.1)

def Field.fill (f : Field Json ρ) (missing : Bool) (v : Json) (r : ρ) : ρ :=
  if missing then f.reset r else (f.read v r).getD r

def Field.Faithful (f : Field Json ρ) (o : ρ) : Prop :=
  f.presence = .optional ∧ ∀ r, (f.read (f.write o) r).isSome = true

/-! What is given for a name -/

section

variable {given members : List (String × Json)} {absent : String → Bool} {name : String} {v : Json}

theorem Partly.refl : Partly (fun _ => false) given given := by
  have hknown : given.filter (·.1 ∈ given.map Prod.fst) = given :=
    List.filter_eq_self.mpr fun m hm => decide_eq_true (List.mem_map_of_mem hm)
  rw [Partly, hknown]
  exact .of_eq (List.filter_eq_self.mpr fun _ _ => rfl).symm

theorem filter_name (hnames : (given.map Prod.fst).Nodup) (hgiven : (name, v) ∈ given)
    : given.filter (·.1 = name) = [(name, v)] := by
  induction given with
  | nil => cases hgiven
  | cons m ms ih =>
    rw [List.map_cons, List.nodup_cons] at hnames
    rcases List.mem_cons.mp hgiven with rfl | hlater
    . have hnone : ms.filter (·.1 = name) = [] :=
        List.filter_eq_nil_iff.mpr fun m hm hname =>
          hnames.left (List.mem_map.mpr ⟨m, hm, of_decide_eq_true hname⟩)
      simp [hnone]
    . have hne : m.1 ≠ name := fun hname =>
        hnames.left (List.mem_map.mpr ⟨_, hlater, hname.symm⟩)
      simp [hne, ih hnames.right hlater]

theorem Partly.filter_name (partly : Partly absent given members)
    (hnames : (given.map Prod.fst).Nodup) (hgiven : (name, v) ∈ given)
    : members.filter (·.1 = name) = if absent name then [] else [(name, v)] := by
  have hknown : name ∈ given.map Prod.fst := List.mem_map.mpr ⟨_, hgiven, rfl⟩
  have hmembers : (members.filter (·.1 ∈ given.map Prod.fst)).filter (·.1 = name) =
      members.filter (·.1 = name) := by
    rw [List.filter_filter]
    refine List.filter_congr fun m _ => ?_
    by_cases hname : m.1 = name
    . simp only [hname, hknown, decide_true, Bool.and_true]
    . simp only [hname, decide_false, Bool.false_and]
  have hfull : (given.filter fun m => !absent m.1).filter (·.1 = name) =
      if absent name then [] else [(name, v)] := by
    have hswap : (given.filter fun m => !absent m.1).filter (·.1 = name) =
        (given.filter (·.1 = name)).filter fun m => !absent m.1 := by
      simp only [List.filter_filter, Bool.and_comm]
    rw [hswap, Record.filter_name hnames hgiven]
    cases habsent : absent name <;> simp [habsent]
  have hperm := partly.filter (·.1 = name)
  rw [hmembers, hfull] at hperm
  split at hperm
  . next habsent => rw [if_pos habsent, List.perm_nil.mp hperm]
  . next hpresent => rw [if_neg hpresent, List.perm_singleton.mp hperm]

end

section

variable {fields : List (Field Json ρ)} {given more : List (String × Json)}
variable {absent : String → Bool} {missing : Bool} {name : String} {r : ρ} {default a : α}
variable {decode : Json → Option α} {encode : α → Json} {get : ρ → α} {set : α → ρ → ρ}

theorem readNamed_cons (f : Field Json ρ)
    : readNamed (f :: fields) more r = (f.readNamed more r).bind (readNamed fields more) :=
  List.foldlM_cons ..

theorem Field.readNamed_eq (f : Field Json ρ) (hoptional : f.presence = .optional)
    (hgiven : more.filter (·.1 = f.name) = if missing then [] else [(f.name, v)])
    (hread : (f.read v r).isSome = true) : f.readNamed more r = some (f.fill missing v r) := by
  unfold Field.readNamed
  rw [hgiven]
  cases missing with
  | true => simp [hoptional, Field.fill]
  | false =>
    obtain ⟨r', hr'⟩ := Option.isSome_iff_exists.mp hread
    simp [hr', Field.fill]

theorem readNamed_eq (value : Field Json ρ → Json)
    (hoptional : ∀ f ∈ fields, f.presence = .optional)
    (hgiven : ∀ f ∈ fields,
      more.filter (·.1 = f.name) = if absent f.name then [] else [(f.name, value f)])
    (hread : ∀ f ∈ fields, ∀ r, (f.read (value f) r).isSome = true)
    : readNamed fields more r =
        some (fields.foldl (fun r f => f.fill (absent f.name) (value f) r) r) := by
  induction fields generalizing r with
  | nil => rfl
  | cons f fs ih =>
    rw [readNamed_cons, f.readNamed_eq (hoptional f List.mem_cons_self)
      (hgiven f List.mem_cons_self) (hread f List.mem_cons_self r), Option.bind_some,
      ih (fun g hg => hoptional g (List.mem_cons_of_mem _ hg))
        (fun g hg => hgiven g (List.mem_cons_of_mem _ hg))
        (fun g hg => hread g (List.mem_cons_of_mem _ hg))]
    rfl

theorem read_partly {o : ρ} (hnames : (fields.map Field.name).Nodup)
    (hfaithful : ∀ f ∈ fields, f.Faithful o) (partly : Partly absent (members fields o) more)
    : Record.read fields r (.object more) =
        some (fields.foldl (fun r f => f.fill (absent f.name) (f.write o) r) r) := by
  have hnodup : ((members fields o).map Prod.fst).Nodup := by
    simpa [members, Function.comp_def] using hnames
  exact readNamed_eq (·.write o) (fun f hf => (hfaithful f hf).left)
    (fun f hf => partly.filter_name hnodup (List.mem_map.mpr ⟨f, hf, rfl⟩))
    fun f hf => (hfaithful f hf).right

/-! Values that are read as they were written -/

theorem valueField_name : (valueField name decode encode default get set).name = name :=
  rfl

theorem valueField_write
    : (valueField name decode encode default get set).write r = encode (get r) :=
  rfl

theorem valueField_faithful (hcode : decode (encode (get o)) = some (get o))
    : (valueField name decode encode default get set).Faithful o :=
  ⟨rfl, fun r => by simp [valueField, hcode]⟩

theorem valueField_fill (hcode : decode (encode (get o)) = some (get o))
    : (valueField name decode encode default get set).fill missing
          ((valueField name decode encode default get set).write o) r =
        set (if missing then default else get o) r := by
  cases missing <;> simp [Field.fill, valueField, hcode]

theorem valueField_readNamed
    (hgiven : more.filter (·.1 = name) = if missing then [] else [(name, v)])
    (hcode : decode v = some a)
    : (valueField name decode encode default get set).readNamed more r =
        some (set (if missing then default else a) r) := by
  rw [Field.readNamed_eq _ rfl hgiven (by simp [valueField, hcode])]
  cases missing <;> simp [Field.fill, valueField, hcode]

theorem recordField_readNamed {τ : Type} {inner : List (Field Json τ)} {default a : τ} {get : ρ → τ}
    {set : τ → ρ → ρ}
    (hgiven : more.filter (·.1 = name) = if missing then [] else [(name, v)])
    (hread : Record.read inner default v = some a)
    : (recordField name inner default get set).readNamed more r =
        some (set (if missing then default else a) r) :=
  valueField_readNamed hgiven hread

-- Proofs that are no bare `rfl` let `simp` use the equations for conditions on `Source.text?` too.
@[simp]
theorem text?_string (s : String) : Source.text? (Json.string s) = some s := by
  simp only [Source.text?, Json.asString?]

@[simp]
theorem flag?_bool (b : Bool) : Source.flag? (Json.bool b) = some b := by
  simp only [Source.flag?, Json.asBool?]

@[simp]
theorem uint64?_ofNat (n : UInt64) : uint64? (Json.ofNat n.toNat) = some n := by
  have hnatural : Source.natural? (Json.ofNat n.toNat) = some n.toNat := rfl
  simp [uint64?, hnatural, n.toNat_lt_size]

@[simp]
theorem uint32?_ofNat (n : UInt32) : uint32? (Json.ofNat n.toNat) = some n := by
  have hnatural : Source.natural? (Json.ofNat n.toNat) = some n.toNat := rfl
  simp [uint32?, hnatural, n.toNat_lt_size]

theorem optional?_ofOption (hcode : ∀ a, decode (encode a) = some a)
    (hpresent : ∀ a, Source.isAbsent (encode a) = false) (a : Option α)
    : optional? decode (.ofOption encode a) = some a := by
  cases a with
  | none => rfl
  | some a => simp [optional?, Json.ofOption, hcode, hpresent]

@[simp]
theorem optional?_text (s : Option String)
    : optional? Source.text? (Json.ofOption .string s) = some s :=
  optional?_ofOption text?_string (fun _ => rfl) s

@[simp]
theorem optional?_uint32 (n : Option UInt32)
    : optional? uint32? (Json.ofOption (fun n => .ofNat n.toNat) n) = some n :=
  optional?_ofOption uint32?_ofNat (fun _ => rfl) n

end

end BringUp.Record
