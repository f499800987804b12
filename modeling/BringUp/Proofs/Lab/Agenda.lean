import BringUp.Proofs.Lab.Trace

/-!
This module contains agendas: which calls a program is to make on the lines of a lab, one after
another, and how their errors are reported. The main statement is that a program made of parts that
follow agendas follows these in order, and that an agenda is carried out up to the first call that
does not succeed.
-/

namespace BringUp

open Program Trace

def Call.onLine? : Call → Option DeviceCall
  | .device c => some c
  | .interrupt _ => some (.activate .bootloader)
  | _ => none

def Event.Failed (e : Event) : Prop :=
  e.call.onLine? ≠ none ∧ e.success? = none

namespace Trace

def calls (t : List Event) : List DeviceCall :=
  t.filterMap fun e => e.call.onLine?

def successes (t : List Event) : List DeviceCall :=
  t.filterMap Event.success?

@[simp]
theorem calls_append : calls (h ++ t) = calls h ++ calls t :=
  List.filterMap_append ..

@[simp]
theorem successes_append : successes (h ++ t) = successes h ++ successes t :=
  List.filterMap_append ..

theorem calls_eq_nil_iff : calls t = [] ↔ ∀ e ∈ t, e.call.onLine? = none :=
  List.filterMap_eq_nil_iff

theorem first_unique {kind : Event → Prop}
    (hsplit : before ++ e :: after = before' ++ e' :: after') (hbefore : ∀ x ∈ before, ¬kind x)
    (he : kind e) (hbefore' : ∀ x ∈ before', ¬kind x) (he' : kind e')
    : before = before' ∧ e = e' ∧ after = after' := by
  induction before generalizing before' with
  | nil =>
    cases before' with
    | nil => simpa using hsplit
    | cons x before' =>
      obtain ⟨rfl, _⟩ : e = x ∧ _ := by simpa using hsplit
      exact absurd he (hbefore' e (List.mem_cons_self ..))
  | cons x before ih =>
    cases before' with
    | nil =>
      obtain ⟨rfl, _⟩ : x = e' ∧ _ := by simpa using hsplit
      exact absurd he' (hbefore x (List.mem_cons_self ..))
    | cons y before' =>
      obtain ⟨rfl, hrest⟩ : x = y ∧ before ++ e :: after = before' ++ e' :: after' := by
        simpa using hsplit
      obtain ⟨rfl, hsame⟩ := ih hrest
        (fun z hz => hbefore z (List.mem_cons_of_mem _ hz))
        (fun z hz => hbefore' z (List.mem_cons_of_mem _ hz))
      exact ⟨rfl, hsame⟩

end Trace

theorem Event.not_failed_of_onLine? {e : Event} (he : e.call.onLine? = none) : ¬e.Failed :=
  fun hf => hf.left he

theorem Event.success?_of_onLine? {e : Event} (he : e.call.onLine? = none) : e.success? = none := by
  unfold Event.success?
  split
  . cases he
  . cases he
  . rfl

theorem Trace.successes_eq_nil (ht : ∀ e ∈ t, e.call.onLine? = none) : successes t = [] :=
  List.filterMap_eq_nil_iff.mpr fun e he => Event.success?_of_onLine? (ht e he)

theorem Event.onLine?_of_success? {e : Event} (he : e.success? = some c)
    : e.call.onLine? = some c := by
  unfold Event.success? at he
  split at he
  . exact he
  . exact he
  . cases he

theorem Trace.mem_calls_of_mem_successes (hc : c ∈ successes t) : c ∈ calls t := by
  obtain ⟨e, he, hc⟩ := List.mem_filterMap.mp hc
  exact List.mem_filterMap.mpr ⟨e, he, Event.onLine?_of_success? hc⟩

theorem Event.onLine?_eq_success? {e : Event} (he : ¬e.Failed) : e.call.onLine? = e.success? := by
  cases hsuccess : e.success? with
  | some c => exact Event.onLine?_of_success? hsuccess
  | none =>
    by_contra hcall
    exact he ⟨hcall, hsuccess⟩

theorem Trace.calls_eq_successes (ht : ∀ e ∈ t, ¬e.Failed) : calls t = successes t := by
  induction t with
  | nil => rfl
  | cons e t ih =>
    obtain ⟨he, ht⟩ := List.forall_mem_cons.mp ht
    rw [calls, successes, List.filterMap_cons, List.filterMap_cons, Event.onLine?_eq_success? he,
      ← calls, ← successes, ih ht]

theorem Event.failed_error {c : DeviceCall} {e : Error} {start stop : Nat}
    : Event.Failed ⟨.device c, start, stop, some (.error e)⟩ :=
  ⟨nofun, rfl⟩

theorem Event.failed_unreplied {c : DeviceCall} {start stop : Nat}
    : Event.Failed ⟨.device c, start, stop, none⟩ :=
  ⟨nofun, rfl⟩

theorem Event.not_failed_value {c : DeviceCall} {v : c.Value} {start stop : Nat}
    : ¬Event.Failed ⟨.device c, start, stop, some (.ok v)⟩ :=
  fun hf => by cases hf.right

inductive Item where
  | call (c : DeviceCall) (report : Error → Error)
  | unbound (err : Error)

def Item.reported (f : Error → Error) : Item → Item
  | call c report => call c fun e => f (report e)
  | unbound err => unbound (f err)

abbrev Agenda := List Item

namespace Agenda

def calls : Agenda → List DeviceCall
  | [] | .unbound _ :: _ => []
  | .call c _ :: rest => c :: calls rest

def Bound (agenda : Agenda) : Prop :=
  ∀ err, .unbound err ∉ agenda

theorem bound_append {agenda rest : Agenda}
    : Bound (agenda ++ rest) ↔ Bound agenda ∧ Bound rest := by
  simp [Bound, not_or, forall_and]

theorem bound_flatMap {items : β → Agenda} {bs : List β}
    : Bound (bs.flatMap items) ↔ ∀ b ∈ bs, Bound (items b) := by
  simp only [Bound, List.mem_flatMap, not_exists, not_and]
  exact ⟨fun hbound b hb err => hbound err b hb, fun hbound err b hb => hbound b hb err⟩

theorem Bound.calls_append {agenda rest : Agenda} (hbound : agenda.Bound)
    : calls (agenda ++ rest) = calls agenda ++ calls rest := by
  induction agenda with
  | nil => rfl
  | cons item agenda ih =>
    cases item with
    | call c report => exact congrArg (c :: ·) (ih fun err herr => hbound err (by simp [herr]))
    | unbound err => exact absurd (List.mem_cons_self ..) (hbound err)

theorem mem_calls_append {agenda rest : Agenda} (hc : c ∈ (agenda ++ rest).calls)
    : c ∈ agenda.calls ∨ c ∈ rest.calls := by
  induction agenda with
  | nil => exact .inr hc
  | cons item agenda ih =>
    cases item with
    | call c' report =>
      rcases List.mem_cons.mp hc with rfl | hc
      . exact .inl (List.mem_cons_self ..)
      . exact (ih hc).imp_left (List.mem_cons_of_mem _)
    | unbound err => cases hc

theorem exists_of_mem_calls {agenda : Agenda} (hc : c ∈ agenda.calls)
    : ∃ report, .call c report ∈ agenda := by
  induction agenda with
  | nil => cases hc
  | cons item agenda ih =>
    cases item with
    | call c' report =>
      rcases List.mem_cons.mp hc with rfl | hc
      . exact ⟨report, List.mem_cons_self ..⟩
      . obtain ⟨report', hmem⟩ := ih hc
        exact ⟨report', List.mem_cons_of_mem _ hmem⟩
    | unbound err => cases hc

/--
Some events are all calls of an agenda up to the first that does not succeed, and maybe others that
are on no line. How that ended is told by the call that has not succeeded, or the line that is not
bound.
-/
inductive Carried {α : Type} : Agenda → Option (Except Error α) → List Event → Prop where
  | done (a : α) : Carried [] (some (.ok a)) []
  | other {e : Event} (he : e.call.onLine? = none) (hc : Carried agenda r t)
      : Carried agenda r (e :: t)
  | succeeds (v : c.Value) (hc : Carried rest r t)
      : Carried (.call c report :: rest) r (⟨.device c, start, stop, some (.ok v)⟩ :: t)
  | fails (e : Error) (ht : ∀ x ∈ t, x.call.onLine? = none)
      : Carried (.call c report :: rest) (some (.error (report e)))
          (⟨.device c, start, stop, some (.error e)⟩ :: t)
  | hangs : Carried (.call c report :: rest) none [⟨.device c, start, stop, none⟩]
  | unbound : Carried (.unbound err :: rest) (some (.error err)) []

namespace Carried

variable {α β : Type} {agenda rest : Agenda}

theorem append {r : Option (Except Error β)} (hc : Carried agenda (some (.ok (a : α))) t)
    (hrest : Carried rest r u)
    : Carried (agenda ++ rest) r (t ++ u) := by
  generalize hend : some (Except.ok a) = ending at hc
  induction hc with
  | done _ => exact hrest
  | other he _ ih => exact .other he (ih hend)
  | succeeds v _ ih => exact .succeeds v (ih hend)
  | fails e ht => cases hend
  | hangs => cases hend
  | unbound => cases hend

theorem of_error (hc : Carried (α := α) agenda (some (.error err)) t)
    : Carried (α := β) (agenda ++ rest) (some (.error err)) t := by
  generalize hend : some (Except.error err) = ending at hc
  induction hc with
  | done _ => cases hend
  | other he _ ih => exact .other he (ih hend)
  | succeeds v _ ih => exact .succeeds v (ih hend)
  | fails e ht =>
    cases hend
    exact .fails e ht
  | hangs => cases hend
  | unbound =>
    cases hend
    exact .unbound

theorem of_none (hc : Carried (α := α) agenda none t)
    : Carried (α := β) (agenda ++ rest) none t := by
  generalize hend : none = ending at hc
  induction hc with
  | done _ => cases hend
  | other he _ ih => exact .other he (ih hend)
  | succeeds v _ ih => exact .succeeds v (ih hend)
  | fails e ht => cases hend
  | hangs => exact .hangs
  | unbound => cases hend

theorem concat_other {r : Except Error α} (hc : Carried agenda (some r) t)
    (he : e.call.onLine? = none)
    : Carried agenda (some r) (t ++ [e]) := by
  generalize hend : some r = ending at hc
  induction hc with
  | done a => exact .other he (.done a)
  | other he' _ ih => exact .other he' (ih hend)
  | succeeds v _ ih => exact .succeeds v (ih hend)
  | fails e' ht => exact .fails e' (List.forall_mem_append.mpr ⟨ht, by simpa using he⟩)
  | hangs => cases hend
  | unbound => exact .other he .unbound

theorem split {r : Option (Except Error α)} (hc : Carried (agenda ++ rest) r t)
    : (∃ h u, t = h ++ u ∧ Carried agenda (some (.ok ())) h ∧ Carried rest r u) ∨
        (∀ a, r ≠ some (.ok a)) ∧ Carried agenda r t := by
  generalize hall : agenda ++ rest = all at hc
  induction hc generalizing agenda with
  | done a =>
    obtain ⟨rfl, rfl⟩ := List.append_eq_nil_iff.mp hall
    exact .inl ⟨[], [], rfl, .done (), .done a⟩
  | @other _ _ _ e he hc ih =>
    rcases ih hall with ⟨h, u, rfl, hfirst, hsecond⟩ | ⟨hend, hfirst⟩
    . exact .inl ⟨e :: h, u, rfl, .other he hfirst, hsecond⟩
    . exact .inr ⟨hend, .other he hfirst⟩
  | succeeds v hc ih =>
    cases agenda with
    | nil =>
      obtain rfl := hall
      exact .inl ⟨[], _, rfl, .done (), .succeeds v hc⟩
    | cons item agenda =>
      obtain ⟨rfl, rfl⟩ := List.cons_eq_cons.mp hall
      rcases ih rfl with ⟨h, u, rfl, hfirst, hsecond⟩ | ⟨hend, hfirst⟩
      . exact .inl ⟨_ :: h, u, rfl, .succeeds v hfirst, hsecond⟩
      . exact .inr ⟨hend, .succeeds v hfirst⟩
  | fails e ht =>
    cases agenda with
    | nil =>
      obtain rfl := hall
      exact .inl ⟨[], _, rfl, .done (), .fails e ht⟩
    | cons item agenda =>
      obtain ⟨rfl, _⟩ := List.cons_eq_cons.mp hall
      exact .inr ⟨nofun, .fails e ht⟩
  | hangs =>
    cases agenda with
    | nil =>
      obtain rfl := hall
      exact .inl ⟨[], _, rfl, .done (), .hangs⟩
    | cons item agenda =>
      obtain ⟨rfl, _⟩ := List.cons_eq_cons.mp hall
      exact .inr ⟨nofun, .hangs⟩
  | unbound =>
    cases agenda with
    | nil =>
      obtain rfl := hall
      exact .inl ⟨[], [], rfl, .done (), .unbound⟩
    | cons item agenda =>
      obtain ⟨rfl, _⟩ := List.cons_eq_cons.mp hall
      exact .inr ⟨nofun, .unbound⟩

theorem calls_prefix {r : Option (Except Error α)} (hc : Carried agenda r t)
    : Trace.calls t <+: agenda.calls := by
  induction hc with
  | done _ => exact List.nil_prefix ..
  | other he _ ih =>
    rw [Trace.calls, List.filterMap_cons, he]
    exact ih
  | succeeds v _ ih => exact List.prefix_cons_inj _ |>.mpr ih
  | fails e ht =>
    rw [Trace.calls, List.filterMap_cons, List.filterMap_eq_nil_iff.mpr ht]
    exact List.prefix_cons_inj _ |>.mpr (List.nil_prefix ..)
  | hangs => exact List.prefix_cons_inj _ |>.mpr (List.nil_prefix ..)
  | unbound => exact List.nil_prefix ..

theorem successes_prefix {r : Option (Except Error α)} (hc : Carried agenda r t)
    : successes t <+: agenda.calls := by
  induction hc with
  | done _ => exact List.nil_prefix ..
  | other he _ ih =>
    rw [successes, List.filterMap_cons, Event.success?_of_onLine? he]
    exact ih
  | succeeds v _ ih => exact List.prefix_cons_inj _ |>.mpr ih
  | fails e ht =>
    have nothing : successes _ = [] := successes_eq_nil ht
    exact nothing ▸ List.nil_prefix ..
  | hangs => exact List.nil_prefix ..
  | unbound => exact List.nil_prefix ..

theorem successes_eq_of_clean {r : Option (Except Error α)} (hc : Carried agenda r t)
    (ht : ∀ e ∈ t, ¬e.Failed)
    : successes t = agenda.calls := by
  induction hc with
  | done _ => rfl
  | other he _ ih =>
    rw [successes, List.filterMap_cons, Event.success?_of_onLine? he]
    exact ih fun x hx => ht x (List.mem_cons_of_mem _ hx)
  | succeeds v _ ih => exact congrArg (_ :: ·) (ih fun x hx => ht x (List.mem_cons_of_mem _ hx))
  | fails e _ => exact absurd Event.failed_error (ht _ (List.mem_cons_self ..))
  | hangs => exact absurd Event.failed_unreplied (ht _ (List.mem_cons_self ..))
  | unbound => rfl

theorem not_failed (hc : Carried agenda (some (.ok (a : α))) t) : ∀ e ∈ t, ¬e.Failed := by
  generalize hend : some (Except.ok a) = ending at hc
  induction hc with
  | done _ => simp
  | other he _ ih =>
    rw [List.forall_mem_cons]
    exact ⟨Event.not_failed_of_onLine? he, ih hend⟩
  | succeeds v _ ih =>
    rw [List.forall_mem_cons]
    exact ⟨Event.not_failed_value, ih hend⟩
  | fails e ht => cases hend
  | hangs => cases hend
  | unbound => cases hend

theorem successes_eq (hc : Carried agenda (some (.ok (a : α))) t)
    : successes t = agenda.calls :=
  hc.successes_eq_of_clean hc.not_failed

theorem bound (hc : Carried agenda (some (.ok (a : α))) t) : agenda.Bound := by
  generalize hend : some (Except.ok a) = ending at hc
  induction hc with
  | done _ => simp [Bound]
  | other _ _ ih => exact ih hend
  | succeeds v _ ih =>
    intro err hmem
    rcases List.mem_cons.mp hmem with heq | hmem
    . cases heq
    . exact ih hend err hmem
  | fails e ht => cases hend
  | hangs => cases hend
  | unbound => cases hend

theorem error_cases (hc : Carried (α := α) agenda (some (.error err)) t)
    : ∃ front item rest h u, agenda = front ++ item :: rest ∧ t = h ++ u ∧
        Carried front (some (.ok ())) h ∧
        match item with
        | .call c report => ∃ start stop e after,
            u = ⟨.device c, start, stop, some (.error e)⟩ :: after ∧
              (∀ x ∈ after, x.call.onLine? = none) ∧ err = report e
        | .unbound err' => u = [] ∧ err = err' := by
  generalize hend : some (Except.error err) = ending at hc
  induction hc with
  | done _ => cases hend
  | @other _ _ _ e he _ ih =>
    obtain ⟨front, item, rest, h, u, hall, rfl, hfront, hitem⟩ := ih hend
    exact ⟨front, item, rest, e :: h, u, hall, rfl, .other he hfront, hitem⟩
  | succeeds v _ ih =>
    obtain ⟨front, item, rest, h, u, rfl, rfl, hfront, hitem⟩ := ih hend
    exact ⟨_ :: front, item, rest, _ :: h, u, rfl, rfl, .succeeds v hfront, hitem⟩
  | fails e ht =>
    cases hend
    exact ⟨[], _, _, [], _, rfl, rfl, .done (), _, _, e, _, rfl, ht, rfl⟩
  | hangs => cases hend
  | unbound =>
    cases hend
    exact ⟨[], _, _, [], [], rfl, rfl, .done (), rfl, rfl⟩

theorem error_call (hc : Carried (α := α) agenda (some (.error err)) t) (hbound : agenda.Bound)
    : ∃ front c report rest h start stop e after, agenda = front ++ .call c report :: rest ∧
        t = h ++ ⟨.device c, start, stop, some (.error e)⟩ :: after ∧
        Carried front (some (.ok ())) h ∧ err = report e := by
  obtain ⟨front, item, rest, h, u, rfl, rfl, hfront, hitem⟩ := hc.error_cases
  cases item with
  | call c report =>
    obtain ⟨start, stop, e, after, rfl, _, rfl⟩ := hitem
    exact ⟨front, c, report, rest, h, start, stop, e, after, rfl, rfl, hfront, rfl⟩
  | unbound err' => exact absurd (by simp) (hbound err')

theorem stops {r : Option (Except Error α)} (hc : Carried agenda r (before ++ e :: after))
    (he : e.Failed)
    : (∀ x ∈ before, ¬x.Failed) ∧ ∀ x ∈ after, x.call.onLine? = none := by
  generalize hsplit : before ++ e :: after = t at hc
  induction hc generalizing before with
  | done _ => simp at hsplit
  | other hother _ ih =>
    cases before with
    | nil =>
      obtain ⟨rfl, _⟩ := List.cons_eq_cons.mp hsplit
      exact absurd he (Event.not_failed_of_onLine? hother)
    | cons x before =>
      obtain ⟨rfl, hrest⟩ := List.cons_eq_cons.mp hsplit
      obtain ⟨hbefore, hafter⟩ := ih hrest
      exact ⟨List.forall_mem_cons.mpr ⟨Event.not_failed_of_onLine? hother, hbefore⟩, hafter⟩
  | succeeds v _ ih =>
    cases before with
    | nil =>
      obtain ⟨rfl, _⟩ := List.cons_eq_cons.mp hsplit
      exact absurd he Event.not_failed_value
    | cons x before =>
      obtain ⟨rfl, hrest⟩ := List.cons_eq_cons.mp hsplit
      obtain ⟨hbefore, hafter⟩ := ih hrest
      exact ⟨List.forall_mem_cons.mpr ⟨Event.not_failed_value, hbefore⟩, hafter⟩
  | fails e' ht =>
    cases before with
    | nil =>
      obtain ⟨rfl, rfl⟩ := List.cons_eq_cons.mp hsplit
      exact ⟨by simp, ht⟩
    | cons x before =>
      obtain ⟨rfl, rfl⟩ := List.cons_eq_cons.mp hsplit
      exact absurd (ht e (by simp)) he.left
  | hangs =>
    cases before with
    | nil =>
      obtain ⟨rfl, rfl⟩ := List.cons_eq_cons.mp hsplit
      exact ⟨by simp, by simp⟩
    | cons x before => simp at hsplit
  | unbound => simp at hsplit

theorem none_cases (hc : Carried (α := α) agenda none t)
    : ∃ h c start stop, t = h ++ [⟨.device c, start, stop, none⟩] ∧ ∀ e ∈ h, ¬e.Failed := by
  generalize hend : none = ending at hc
  induction hc with
  | done _ => cases hend
  | @other _ _ _ e he _ ih =>
    obtain ⟨h, c, start, stop, rfl, hh⟩ := ih hend
    exact ⟨e :: h, c, start, stop, rfl,
      List.forall_mem_cons.mpr ⟨Event.not_failed_of_onLine? he, hh⟩⟩
  | succeeds v _ ih =>
    obtain ⟨h, c, start, stop, rfl, hh⟩ := ih hend
    exact ⟨_ :: h, c, start, stop, rfl, List.forall_mem_cons.mpr ⟨Event.not_failed_value, hh⟩⟩
  | fails e ht => cases hend
  | hangs => exact ⟨[], _, _, _, rfl, by simp⟩
  | unbound => cases hend

theorem exists_failed {r : Option (Except Error α)} (hc : Carried agenda r t)
    (hend : ∀ a, r ≠ some (.ok a)) (hbound : agenda.Bound)
    : ∃ e ∈ t, e.Failed := by
  rcases r with _ | err | a
  . obtain ⟨h, c, start, stop, rfl, _⟩ := hc.none_cases
    exact ⟨_, List.mem_append_right _ (List.mem_singleton_self _), Event.failed_unreplied⟩
  . obtain ⟨_, _, _, _, h, _, _, _, _, _, rfl, _, _⟩ := hc.error_call hbound
    exact ⟨_, List.mem_append_right _ (List.mem_cons_self ..), Event.failed_error⟩
  . exact absurd rfl (hend a)

theorem of_unbound {r : Option (Except Error α)} (hc : Carried (.unbound err :: rest) r t)
    : r = some (.error err) := by
  generalize hall : Item.unbound err :: rest = agenda at hc
  induction hc with
  | other _ _ ih => exact ih hall
  | unbound =>
    cases hall
    rfl
  | _ => cases hall

theorem stops_unbound {r : Option (Except Error α)}
    (hc : Carried (agenda ++ .unbound err :: rest) r t) (hbound : agenda.Bound)
    (ht : ∀ e ∈ t, ¬e.Failed)
    : r = some (.error err) := by
  rcases hc.split with ⟨h, u, rfl, _, hunbound⟩ | ⟨hend, hfirst⟩
  . exact hunbound.of_unbound
  . obtain ⟨e, he, hfailed⟩ := hfirst.exists_failed hend hbound
    exact absurd hfailed (ht e he)

theorem successes_length_lt {r : Option (Except Error α)} (hc : Carried agenda r t)
    (hend : ∀ a, r ≠ some (.ok a)) (hbound : agenda.Bound)
    : (successes t).length < agenda.calls.length := by
  induction hc with
  | done a => exact absurd rfl (hend a)
  | other he _ ih =>
    rw [successes, List.filterMap_cons, Event.success?_of_onLine? he]
    exact ih hend hbound
  | succeeds v _ ih =>
    apply Nat.succ_lt_succ
    apply ih hend
    intro err hmem
    exact hbound err (List.mem_cons_of_mem _ hmem)
  | fails e ht =>
    have nothing : (successes _).length = 0 := congrArg List.length (successes_eq_nil ht)
    exact Nat.lt_of_le_of_lt (Nat.le_of_eq nothing) (Nat.succ_pos _)
  | hangs => exact Nat.succ_pos _
  | unbound => exact absurd (List.mem_cons_self ..) (hbound _)

theorem head {r : Option (Except Error α)} (hc : Carried (.call c report :: rest) r t)
    : ∃ before start stop reply after, t = before ++ ⟨.device c, start, stop, reply⟩ :: after ∧
        (∀ x ∈ before, x.call.onLine? = none) ∧
        match reply with
        | some (.ok _) => Carried rest r after
        | some (.error e) => r = some (.error (report e)) ∧ ∀ x ∈ after, x.call.onLine? = none
        | none => r = none ∧ after = [] := by
  generalize hall : Item.call c report :: rest = agenda at hc
  induction hc with
  | done _ => cases hall
  | @other _ _ _ e he _ ih =>
    obtain ⟨before, start, stop, reply, after, rfl, hbefore, hreply⟩ := ih hall
    exact ⟨e :: before, start, stop, reply, after, rfl,
      List.forall_mem_cons.mpr ⟨he, hbefore⟩, hreply⟩
  | succeeds v hrest _ =>
    cases hall
    exact ⟨[], _, _, _, _, rfl, by simp, hrest⟩
  | fails e ht =>
    cases hall
    exact ⟨[], _, _, _, _, rfl, by simp, rfl, ht⟩
  | hangs =>
    cases hall
    exact ⟨[], _, _, _, _, rfl, by simp, rfl, rfl⟩
  | unbound => cases hall

theorem head_mem {r : Option (Except Error α)} (hc : Carried (.call c report :: rest) r t)
    : c ∈ Trace.calls t := by
  obtain ⟨before, start, stop, reply, after, rfl, _, _⟩ := hc.head
  simp [Trace.calls, Call.onLine?]

end Carried

end Agenda

def Program.Follows (agenda : Agenda) (p : Program σ Error α) : Prop :=
  ∀ s now, p.Ensures (fun r _ _ t => agenda.Carried r t) s now []

theorem Program.Follows.run {agenda : Agenda} {p : Program σ Error α} (hp : p.Follows agenda)
    (lab : Lab ω) (s : σ) (w : ω) (now : Nat)
    : agenda.Carried (p.run lab none s w now).result (p.run lab none s w now).trace := by
  simpa using (hp s now).run lab w

namespace Agenda

section

variable {σ α β : Type} {agenda rest : Agenda}

theorem follows_pure {a : α} : (pure a : Program σ Error α).Follows [] :=
  fun _ _ => .done a

theorem follows_raise {err : Error} : (raise err : Program σ Error α).Follows [.unbound err] :=
  fun _ _ => .unbound

theorem follows_device {c : DeviceCall}
    : Follows (α := no_index c.Value) (σ := σ) [.call c id] (device c) := by
  intro s now
  rw [ensures_device]
  refine ⟨.hangs, ?_⟩
  intro stop r _
  cases r with
  | error e => exact .fails e (by simp)
  | ok v => exact .succeeds v (.done v)

theorem follows_sleep : (sleep ms : Program σ Error Unit).Follows [] := by
  intro s now
  rw [ensures_sleep]
  exact .other rfl (.done ())

theorem follows_clock : (clock : Program σ Error Nat).Follows [] := by
  intro s now
  rw [ensures_clock]
  exact .other rfl (.done now)

theorem follows_bind {p : Program σ Error α} {f : α → Program σ Error β} (hp : p.Follows agenda)
    (hf : ∀ a, (f a).Follows rest)
    : (p >>= f).Follows (agenda ++ rest) := by
  intro s now
  rw [ensures_bind]
  apply (hp s now).mono
  intro r s now t ht
  rcases r with _ | e | a
  . exact ht.of_none
  . exact ht.of_error
  . rw [Post.andThen_ok, ensures_iff_nil]
    apply (hf a s now).mono
    intro r _ _ u hu
    exact ht.append hu

theorem follows_device_bind {c : DeviceCall} {f : c.Value → Program σ Error α}
    (hf : ∀ v, (f v).Follows rest)
    : (Bind.bind (α := no_index c.Value) (device c) f).Follows (.call c id :: rest) := by
  rw [← List.singleton_append]
  exact follows_bind follows_device hf

theorem follows_sleep_bind {f : Unit → Program σ Error α} (hf : (f ()).Follows agenda)
    : (sleep ms >>= f).Follows agenda := by
  rw [← List.nil_append agenda]
  exact follows_bind follows_sleep fun _ => hf

theorem Carried.mapError {r : Option (Except Error α)} (f : Error → Error) (hc : Carried agenda r t)
    : Carried (agenda.map (Item.reported f)) (r.map (Except.mapError f)) t := by
  induction hc with
  | done a => exact .done a
  | other he _ ih => exact .other he ih
  | succeeds v _ ih => exact .succeeds v ih
  | fails e ht => exact .fails e ht
  | hangs => exact .hangs
  | unbound => exact .unbound

theorem follows_mapError {p : Program σ Error α} {f : Error → Error} (hp : p.Follows agenda)
    : (p.mapError f).Follows (agenda.map (Item.reported f)) := by
  intro s now
  rw [ensures_mapError]
  apply (hp s now).mono
  intro r _ _ t ht
  exact ht.mapError f

theorem follows_forEach {f : β → Program σ Error Unit} {items : β → Agenda} (bs : List β)
    (hf : ∀ b, (f b).Follows (items b))
    : (forEach f bs).Follows (bs.flatMap items) := by
  induction bs with
  | nil => exact follows_pure
  | cons b bs ih => exact follows_bind (hf b) fun _ => ih

theorem follows_asPart {p : Program σ Error α} (hp : p.Follows agenda)
    : (asPart part p).Follows agenda := by
  intro s now
  rw [ensures_asPart, List.nil_append, ensures_iff_nil]
  apply (hp s now).mono
  intro r _ now' t ht
  cases r with
  | none => exact .other rfl ht
  | some r => exact .other rfl (ht.concat_other rfl)

end

end Agenda

end BringUp
