import BringUp.Proofs.Build.Paths

/-!
This module contains where a path leads if no name on it is a link. The main statement is that it
leads from the place that it is taken in first some directories up and then down by names.
-/

namespace BringUp

namespace Path

def enter (place : List String) (name : String) : List String :=
  if name = ".." then place.dropLast else place ++ [name]

def walk (place names : List String) : List String := names.foldl enter place

def Below (place inner : List String) : Prop := place <+: inner ∧ place ≠ inner

instance (place inner : List String) : Decidable (Below place inner) :=
  inferInstanceAs (Decidable (_ ∧ _))

/--
A way from a place: some directories up, and then down by names.
-/
structure Way where
  up : Nat
  down : List String
deriving DecidableEq

namespace Way

def enter (w : Way) (name : String) : Way :=
  if name = ".." then
    if w.down = [] then { w with up := w.up + 1 } else { w with down := w.down.dropLast }
  else { w with down := w.down ++ [name] }

def ofNames (names : List String) : Way := names.foldl enter ⟨0, []⟩

def kept (w : Way) (place : List String) : List String := place.take (place.length - w.up)

def left (w : Way) (place : List String) : List String := place.drop (place.length - w.up)

def target (w : Way) (place : List String) : List String := w.kept place ++ w.down

end Way

def Plain (path : String) : Prop := names path = [path] ∧ path ≠ ".."

instance (path : String) : Decidable (Plain path) := inferInstanceAs (Decidable (_ ∧ _))

def wayFrom (place : List String) (path : String) : Way :=
  if isAbsolute path then ⟨place.length, (Way.ofNames (names path)).down⟩
  else Way.ofNames (names path)

section

variable {place front rest : List String} {path base : String} {w w' : Way}

theorem walk_append : walk place (front ++ rest) = walk (walk place front) rest :=
  List.foldl_append ..

theorem below_append_iff : Below (place ++ front) (place ++ rest) ↔ Below front rest := by
  simp [Below]

namespace Way

theorem target_enter (place : List String) (w : Way) (name : String)
    : (w.enter name).target place = Path.enter (w.target place) name := by
  unfold enter Path.enter target kept
  split
  . split
    . next hdown =>
      -- The way leads one directory further up.
      simp only [hdown, List.append_nil, List.dropLast_eq_take, List.take_take, List.length_take]
      congr 1
      omega
    . next hdown => rw [List.dropLast_append_of_ne_nil hdown]
  . rw [List.append_assoc]

theorem target_ofNames (place names : List String)
    : (ofNames names).target place = walk place names := by
  suffices h : ∀ w : Way, (names.foldl enter w).target place = walk (w.target place) names by
    simpa [ofNames, target, kept] using h ⟨0, []⟩
  intro w
  induction names generalizing w with
  | nil => rfl
  | cons name names ih => rw [List.foldl_cons, ih, target_enter, walk, walk, List.foldl_cons]

/--
A way leads to the inside of where it starts exactly if it goes down again by the names that it has
gone up through, and then further.
-/
theorem below_target_iff : Below place (w.target place) ↔ Below (w.left place) w.down := by
  have parted : Below (w.kept place ++ w.left place) (w.target place) ↔
      Below (w.left place) w.down :=
    below_append_iff
  rwa [kept, left, List.take_append_drop] at parted

/--
Two ways lead to the same place exactly if the one that goes up further first goes down again by
the names that the other one has not gone up through.
-/
theorem target_eq_iff (hup : w.up ≤ w'.up)
    : w.target place = w'.target place ↔
        w'.down = (w.kept place).drop (w'.kept place).length ++ w.down := by
  have hkept : w'.kept place <+: w.kept place := List.take_prefix_take_left (by omega)
  rw [target, target]
  conv => lhs; lhs; rw [← List.prefix_iff_eq_append.mp hkept]
  rw [List.append_assoc, List.append_cancel_left_eq, eq_comm]

end Way

theorem pieces_go_append (current front rest : List Char)
    : pieces.go current (front ++ '/' :: rest) = pieces.go current front ++ pieces.go [] rest := by
  induction front generalizing current with
  | nil => simp [pieces.go]
  | cons c front ih =>
    rw [List.cons_append, pieces.go, pieces.go]
    split
    . rw [ih, List.cons_append]
    . exact ih _

theorem not_mem_of_mem_pieces_go (hcurrent : '/' ∉ current) (hpiece : piece ∈ pieces.go current cs)
    : '/' ∉ piece := by
  induction cs generalizing current with
  | nil =>
    rw [List.mem_singleton.mp hpiece]
    simpa using hcurrent
  | cons c cs ih =>
    rw [pieces.go] at hpiece
    split at hpiece
    . rcases List.mem_cons.mp hpiece with rfl | hlater
      . simpa using hcurrent
      . exact ih (by simp) hlater
    . next hc => exact ih (by simpa [hcurrent] using Ne.symm hc) hpiece

theorem names_append (base path : String)
    : names (base ++ "/" ++ path) = names base ++ names path := by
  have hchars : (base ++ "/" ++ path).toList = base.toList ++ '/' :: path.toList := by simp
  rw [names, pieces, hchars, pieces_go_append, List.map_append, List.filter_append]
  rfl

theorem names_append_of_separated (hbase : base.toList.getLast? = some '/')
    : names (base ++ path) = names base ++ names path := by
  obtain ⟨front, hfront⟩ := List.getLast?_eq_some_iff.mp hbase
  have hempty : ((pieces.go [] []).map String.ofList).filter (fun s => s ≠ "" ∧ s ≠ ".") = [] := by
    decide
  rw [names, names, names, pieces, pieces, pieces, String.toList_append, hfront, List.append_assoc,
    List.singleton_append, pieces_go_append, pieces_go_append, List.map_append, List.map_append,
    List.filter_append, List.filter_append, hempty, List.append_nil]

theorem names_join (base path : String)
    : names (join base path) =
        if isAbsolute path then names path else names base ++ names path := by
  unfold join
  split
  . rfl
  . split
    . next hbase =>
      rcases Bool.or_eq_true_iff.mp hbase with hempty | hseparated
      . obtain rfl : base = "" := by simpa using hempty
        rw [String.empty_append]
        rfl
      . exact names_append_of_separated (by simpa using hseparated)
    . exact names_append base path

theorem isAbsolute_append (hbase : base ≠ "") : isAbsolute (base ++ path) = isAbsolute base := by
  have hchars : base.toList ≠ [] := by simpa using hbase
  rw [isAbsolute, isAbsolute, String.toList_append, List.head?_append_of_ne_nil _ hchars]

theorem isAbsolute_join (base path : String)
    : isAbsolute (join base path) = (isAbsolute path || isAbsolute base) := by
  unfold join
  split
  . next hpath => simp [hpath]
  . next hpath =>
    rw [Bool.not_eq_true] at hpath
    by_cases hempty : base = ""
    . subst hempty
      simp [isAbsolute]
    . split
      . rw [isAbsolute_append hempty, hpath, Bool.false_or]
      . rw [String.append_assoc, isAbsolute_append hempty, hpath, Bool.false_or]

theorem Plain.isAbsolute (plain : Plain path) : Path.isAbsolute path = false := by
  have hmem : path ∈ pieces path := by
    have hnames : path ∈ names path := plain.left ▸ List.mem_singleton_self path
    exact List.mem_of_mem_filter hnames
  obtain ⟨piece, hpiece, hchars⟩ := List.mem_map.mp hmem
  have hslash := not_mem_of_mem_pieces_go List.not_mem_nil hpiece
  rw [Path.isAbsolute, decide_eq_false_iff_not, ← hchars, String.toList_ofList]
  intro hhead
  exact hslash (List.mem_of_head? hhead)

theorem Plain.wayFrom (plain : Plain path) : Path.wayFrom place path = ⟨0, [path]⟩ := by
  simp [Path.wayFrom, plain.isAbsolute, plain.left, Way.ofNames, Way.enter, plain.right]

theorem resolve_join (start : List String) (base path : String)
    : resolve start (join base path) = resolve (resolve start base) path := by
  unfold resolve
  rw [isAbsolute_join, names_join]
  cases isAbsolute path with
  | true => rfl
  | false => cases isAbsolute base <;> simp

theorem walk_resolve (dir : List String) (path : String)
    : walk [] (resolve dir path) = (wayFrom (walk [] dir) path).target (walk [] dir) := by
  unfold wayFrom resolve
  split
  . have hroot := Way.target_ofNames [] (names path)
    rw [Way.target, Way.kept, List.take_nil, List.nil_append] at hroot
    rw [← hroot, Way.target, Way.kept, Nat.sub_self, List.take_zero, List.nil_append]
  . rw [Way.target_ofNames, walk_append]

end

end Path

end BringUp
