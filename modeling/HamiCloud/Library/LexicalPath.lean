import Mathlib

/-!
# Lexical paths

Paths as texts over any alphabet with a separator and a dot, and the functions of `path/filepath` on them that look at
no file system: `clean`, `join` and `rel`. A path is read name by name: empty names and single dots are skipped, and a
double dot removes the name before it. A path is below another one if it continues the names of that one without a
double dot.
-/

namespace Library

structure PathSymbols (α : Type) where
  sep : α
  dot : α
  ne : dot ≠ sep

namespace PathSymbols

variable {α : Type} (S : PathSymbols α)

def here : List α := [S.dot]

def up : List α := [S.dot, S.dot]

/-- A name that stays. -/
structure Plain (name : List α) : Prop where
  ne_nil : name ≠ []
  ne_here : name ≠ S.here
  ne_up : name ≠ S.up
  noSep : S.sep ∉ name

/-- Names that a path leaves: double dots, for a path that is not rooted, and then plain names. -/
def Normal (rooted : Bool) (ns : List (List α)) : Prop :=
  ∃ k rest, ns = List.replicate k S.up ++ rest ∧ (∀ n ∈ rest, S.Plain n) ∧ (rooted = true → k = 0)

section Names

variable {S} {rooted : Bool} {ns : List (List α)}

lemma up_noSep : S.sep ∉ S.up := by
  simp [up, S.ne.symm]

lemma Normal.noSep (h : S.Normal rooted ns) : ∀ n ∈ ns, S.sep ∉ n := by
  obtain ⟨k, rest, rfl, hrest, -⟩ := h
  intro n hn
  rcases List.mem_append.mp hn with hn | hn
  · rw [(List.mem_replicate.mp hn).2]
    exact up_noSep
  · exact (hrest n hn).noSep

lemma Normal.ne_nil (h : S.Normal rooted ns) : ∀ n ∈ ns, n ≠ [] := by
  obtain ⟨k, rest, rfl, hrest, -⟩ := h
  intro n hn
  rcases List.mem_append.mp hn with hn | hn
  · rw [(List.mem_replicate.mp hn).2]
    simp [up]
  · exact (hrest n hn).ne_nil

end Names

variable [DecidableEq α]

def isRooted (p : List α) : Bool := p.head? = some S.sep

/-- The names that are left after one more name. -/
def push (rooted : Bool) (stack : List (List α)) (name : List α) : List (List α) :=
  if name = [] ∨ name = S.here then stack
  else if name = S.up then
    if stack.getLast?.any (· ≠ S.up) then stack.dropLast else if rooted then stack else stack ++ [S.up]
  else stack ++ [name]

def walk (rooted : Bool) (stack : List (List α)) (p : List α) : List (List α) :=
  (p.splitOn S.sep).foldl (S.push rooted) stack

def names (p : List α) : List (List α) := S.walk (S.isRooted p) [] p

def render (rooted : Bool) (names : List (List α)) : List α :=
  if rooted then S.sep :: [S.sep].intercalate names
  else if names = [] then S.here else [S.sep].intercalate names

def clean (p : List α) : List α := S.render (S.isRooted p) (S.names p)

/-- Empty elements at the front are left out. -/
def join (elems : List (List α)) : List α :=
  match elems.dropWhile (· = []) with
  | [] => []
  | elems => S.clean ([S.sep].intercalate elems)

/-- What remains of two lists after their common front. -/
def dropCommon {β : Type} [DecidableEq β] : List β → List β → List β × List β
  | a :: as, b :: bs => if a = b then dropCommon as bs else (a :: as, b :: bs)
  | as, bs => (as, bs)

def rel (base targ : List α) : Option (List α) :=
  if S.isRooted base ≠ S.isRooted targ then none
  else
    let (base, targ) := dropCommon (S.names base) (S.names targ)
    if base.head? = some S.up then none
    else some (S.render false (base.map (fun _ => S.up) ++ targ))

/-- The path or something below it. -/
def Below (root p : List α) : Prop :=
  S.isRooted p = S.isRooted root ∧ ∃ rest, S.names p = S.names root ++ rest ∧ S.up ∉ rest

variable {S} {rooted : Bool} {stack ns : List (List α)} {name p q : List α}

/-! ### Reading a path -/

lemma notMem_of_mem_splitOn (h : name ∈ p.splitOn S.sep) : S.sep ∉ name := by
  induction p generalizing name with
  | nil =>
    rw [List.splitOn_nil, List.mem_singleton] at h
    simp [h]
  | cons a p ih =>
    rw [List.splitOn, List.splitOnP_cons_eq_if_modifyHead] at h
    obtain ⟨first, rest, hsplit⟩ := List.exists_cons_of_ne_nil (List.splitOnP_ne_nil (· == S.sep) p)
    have hparts : p.splitOn S.sep = first :: rest := hsplit
    have ih' : ∀ n ∈ first :: rest, S.sep ∉ n := fun n hn => ih (hparts ▸ hn)
    rw [hsplit] at h
    split at h
    · rcases List.mem_cons.mp h with rfl | h
      · simp
      · exact ih' name h
    · rename_i hne
      rcases List.mem_cons.mp h with rfl | h
      · have hne' : a ≠ S.sep := by simpa using hne
        simp [ih' first List.mem_cons_self, Ne.symm hne']
      · exact ih' name (List.mem_cons_of_mem _ h)

lemma splitOn_append_sep (p q : List α) :
    (p ++ S.sep :: q).splitOn S.sep = p.splitOn S.sep ++ q.splitOn S.sep := by
  rw [List.splitOn, List.splitOnP_append_cons _ _ (by simp)]
  rfl

/-- What follows the last separator is the last name. -/
lemma splitOn_last (p : List α) :
    ∃ front last, p.splitOn S.sep = front ++ [last] ∧ (p.reverse.takeWhile (· ≠ S.sep)).reverse = last ∧
      ∀ q, S.sep ∉ q → (p ++ q).splitOn S.sep = front ++ [last ++ q] := by
  have hlast : S.sep ∉ (p.reverse.takeWhile (· ≠ S.sep)).reverse := by
    intro hmem
    simpa using List.mem_takeWhile_imp (List.mem_reverse.mp hmem)
  have hp := congrArg List.reverse (List.takeWhile_append_dropWhile (p := (· ≠ S.sep)) (l := p.reverse))
  rw [List.reverse_append, List.reverse_reverse] at hp
  generalize hl : (p.reverse.takeWhile (· ≠ S.sep)).reverse = last at hp hlast
  cases hd : p.reverse.dropWhile (· ≠ S.sep) with
  | nil =>
    rw [hd, List.reverse_nil, List.nil_append] at hp
    refine ⟨[], last, ?_, rfl, fun q hq => ?_⟩
    · rw [← hp, List.splitOn_eq_singleton hlast, List.nil_append]
    · rw [← hp, List.splitOn_eq_singleton (by simp [hlast, hq]), List.nil_append]
  | cons c rest =>
    obtain rfl : c = S.sep := by
      have hnot := List.head?_dropWhile_not (· ≠ S.sep) p.reverse
      rw [hd] at hnot
      simpa using hnot
    rw [hd, List.reverse_cons, List.append_assoc, List.singleton_append] at hp
    refine ⟨rest.reverse.splitOn S.sep, last, ?_, rfl, fun q hq => ?_⟩
    · rw [← hp, splitOn_append_sep, List.splitOn_eq_singleton hlast]
    · have hmore : S.sep ∉ last ++ q := by simp [hlast, hq]
      rw [← hp, List.append_assoc, List.cons_append, splitOn_append_sep, List.splitOn_eq_singleton hmore]

lemma walk_append (rooted : Bool) (stack : List (List α)) (p q : List α) :
    S.walk rooted stack (p ++ S.sep :: q) = S.walk rooted (S.walk rooted stack p) q := by
  unfold walk
  rw [splitOn_append_sep, List.foldl_append]

lemma isRooted_append (hp : p ≠ []) : S.isRooted (p ++ q) = S.isRooted p := by
  cases p with
  | nil => exact absurd rfl hp
  | cons a p => rfl

lemma names_append (hp : p ≠ []) (q : List α) : S.names (p ++ S.sep :: q) = S.walk (S.isRooted p) (S.names p) q := by
  rw [names, isRooted_append hp, walk_append, names]

lemma join_pair (hp : p ≠ []) (q : List α) : S.join [p, q] = S.clean (p ++ S.sep :: q) := by
  have hdrop : [p, q].dropWhile (· = []) = [p, q] := List.dropWhile_cons_of_neg (by simpa using hp)
  unfold join
  rw [hdrop]
  simp [List.intercalate]

lemma push_plain (h : S.Plain name) : S.push rooted stack name = stack ++ [name] := by
  rw [push, if_neg (by simp [h.ne_nil, h.ne_here]), if_neg h.ne_up]

lemma foldl_push_plain (h : ∀ n ∈ ns, S.Plain n) : ns.foldl (S.push rooted) stack = stack ++ ns := by
  induction ns generalizing stack with
  | nil => exact (List.append_nil stack).symm
  | cons n ns ih =>
    rw [List.foldl_cons, push_plain (h n List.mem_cons_self), ih fun m hm => h m (List.mem_cons_of_mem n hm),
      List.append_assoc]
    rfl

/-! ### Leaving a path

A text that is read from no names at all leaves double dots behind exactly if it leaves every path it is added to.
-/

/-- A double dot that is left stays. -/
lemma up_mem_push (h : S.up ∈ stack) : S.up ∈ S.push false stack name := by
  unfold push
  split
  · exact h
  · split
    · split
      · rename_i hlast
        obtain ⟨last, hlast, hne⟩ := (Option.any_eq_true _ _).mp hlast
        obtain ⟨front, rfl⟩ := List.getLast?_eq_some_iff.mp hlast
        rw [List.dropLast_concat]
        refine (List.mem_append.mp h).resolve_right fun hmem => ?_
        exact of_decide_eq_true hne (List.mem_singleton.mp hmem).symm
      · exact List.mem_append_left _ h
    · exact List.mem_append_left _ h

/-- A name that leaves no double dot behind is read in the same way after other names. -/
lemma push_append (hstack : S.up ∉ ns) (h : S.up ∉ S.push false ns name) :
    S.push rooted (stack ++ ns) name = stack ++ S.push false ns name := by
  unfold push at h ⊢
  split
  · rfl
  · rename_i hskip
    rw [if_neg hskip] at h
    split
    · rename_i hname
      rw [if_pos hname] at h
      rcases List.eq_nil_or_concat ns with rfl | ⟨front, last, rfl⟩
      · simp at h
      · have hlast : last ≠ S.up := fun he => hstack (by simp [he])
        rw [List.concat_eq_append, ← List.append_assoc, List.getLast?_concat, List.getLast?_concat, List.dropLast_concat,
          List.dropLast_concat, if_pos (by simpa using hlast), if_pos (by simpa using hlast)]
    · exact List.append_assoc ..

lemma foldl_push_append {parts : List (List α)} (h : S.up ∉ parts.foldl (S.push false) []) :
    parts.foldl (S.push rooted) stack = stack ++ parts.foldl (S.push false) [] := by
  induction parts using List.reverseRecOn with
  | nil => exact (List.append_nil stack).symm
  | append_singleton parts name ih =>
    rw [List.foldl_append, List.foldl_cons, List.foldl_nil] at h
    have hfront : S.up ∉ parts.foldl (S.push false) [] := fun hmem => h (up_mem_push hmem)
    rw [List.foldl_append, List.foldl_append, List.foldl_cons, List.foldl_cons, List.foldl_nil, List.foldl_nil,
      ih hfront, push_append hfront h]

lemma walk_append_names (h : S.up ∉ S.walk false [] p) : S.walk rooted stack p = stack ++ S.walk false [] p :=
  foldl_push_append h

/-- A name is not put where it was missing by another name. -/
lemma getElem?_push_ne {last : List α} {i : Nat} (hup : last ≠ S.up) (hname : last ≠ name) (h : stack[i]? ≠ some last) :
    (S.push rooted stack name)[i]? ≠ some last := by
  have hconcat : ∀ n, last ≠ n → (stack ++ [n])[i]? ≠ some last := by
    intro n hn hget
    rw [List.getElem?_append] at hget
    split at hget
    · exact h hget
    · exact hn (List.mem_singleton.mp (List.mem_of_getElem? hget))
  unfold push
  split
  · exact h
  · split
    · split
      · rw [List.getElem?_dropLast]
        split
        · exact h
        · simp
      · split
        · exact h
        · exact hconcat _ hup
    · exact hconcat _ hname

/-- A text that leaves a double dot behind removes the last name of the path that it is added to, and does not put it
back unless it mentions it. -/
lemma getElem?_foldl_push_ne {parts : List (List α)} {last : List α} (hup : last ≠ S.up) (hparts : last ∉ parts)
    (h : S.up ∈ parts.foldl (S.push false) []) :
    (parts.foldl (S.push rooted) (stack ++ [last]))[stack.length]? ≠ some last := by
  induction parts using List.reverseRecOn with
  | nil => simp at h
  | append_singleton parts name ih =>
    have hname : last ≠ name := fun he => hparts (by simp [he])
    have hfront : last ∉ parts := fun hmem => hparts (List.mem_append_left _ hmem)
    rw [List.foldl_append, List.foldl_cons, List.foldl_nil] at h ⊢
    by_cases hbefore : S.up ∈ parts.foldl (S.push false) []
    · exact getElem?_push_ne hup hname (ih hfront hbefore)
    · -- the double dot is this name, and nothing was read before it that it could remove
      rw [foldl_push_append hbefore]
      generalize parts.foldl (S.push false) [] = ns at h hbefore
      unfold push at h ⊢
      split at h
      · exact absurd h hbefore
      · rename_i hskip
        rw [if_neg hskip]
        split at h
        · rename_i hname
          rw [if_pos hname]
          rcases List.eq_nil_or_concat ns with rfl | ⟨front, top, rfl⟩
          · rw [List.append_nil, List.getLast?_concat, if_pos (by simpa using hup), List.dropLast_concat]
            simp
          · have htop : top ≠ S.up := fun he => hbefore (by simp [he])
            rw [List.concat_eq_append, List.getLast?_concat, if_pos (by simpa using htop), List.dropLast_concat] at h
            exact absurd (by simp [h]) hbefore
        · rename_i hother
          rcases List.mem_append.mp h with h | h
          · exact absurd h hbefore
          · exact absurd (List.mem_singleton.mp h).symm hother

/-! ### Normal forms -/

/-- The last name is plain exactly if there is a plain one. -/
lemma getLast?_any_ne_up {k : Nat} {rest : List (List α)} (hrest : ∀ n ∈ rest, S.Plain n) :
    (List.replicate k S.up ++ rest).getLast?.any (· ≠ S.up) = true ↔ rest ≠ [] := by
  rcases List.eq_nil_or_concat rest with rfl | ⟨front, last, rfl⟩
  · rw [List.append_nil, List.getLast?_replicate]
    split <;> simp
  · have hlast := (hrest last (by simp)).ne_up
    rw [List.concat_eq_append, ← List.append_assoc, List.getLast?_concat]
    simp [hlast]

lemma Normal.push (h : S.Normal rooted stack) (hname : S.sep ∉ name) : S.Normal rooted (S.push rooted stack name) := by
  obtain ⟨k, rest, rfl, hrest, hk⟩ := h
  unfold PathSymbols.push
  split
  · exact ⟨k, rest, rfl, hrest, hk⟩
  · rename_i hskip
    split
    · split
      · rename_i hlast
        have hne := (getLast?_any_ne_up hrest).mp hlast
        refine ⟨k, rest.dropLast, List.dropLast_append_of_ne_nil hne, fun n hn => ?_, hk⟩
        exact hrest n (List.dropLast_subset rest hn)
      · rename_i hlast
        have hnil := mt (getLast?_any_ne_up hrest).mpr hlast
        split
        · exact ⟨k, rest, rfl, hrest, hk⟩
        · rename_i hrooted
          refine ⟨k + 1, [], ?_, by simp, fun he => absurd he hrooted⟩
          rw [not_not.mp hnil, List.append_nil, List.append_nil, List.replicate_succ']
    · rename_i hup
      refine ⟨k, rest ++ [name], (List.append_assoc ..), fun n hn => ?_, hk⟩
      rcases List.mem_append.mp hn with hn | hn
      · exact hrest n hn
      · rw [List.mem_singleton.mp hn]
        exact ⟨fun he => hskip (.inl he), fun he => hskip (.inr he), hup, hname⟩

lemma Normal.walk (h : S.Normal rooted stack) (p : List α) : S.Normal rooted (S.walk rooted stack p) := by
  have hparts : ∀ n ∈ p.splitOn S.sep, S.sep ∉ n := fun n => notMem_of_mem_splitOn
  unfold PathSymbols.walk
  generalize p.splitOn S.sep = parts at hparts
  induction parts generalizing stack with
  | nil => exact h
  | cons n parts ih =>
    exact ih (h.push (hparts n List.mem_cons_self)) fun m hm => hparts m (List.mem_cons_of_mem n hm)

lemma normal_names (p : List α) : S.Normal (S.isRooted p) (S.names p) :=
  Normal.walk ⟨0, [], rfl, by simp, fun _ => rfl⟩ p

lemma foldl_push_up (k : Nat) : (List.replicate k S.up).foldl (S.push false) [] = List.replicate k S.up := by
  induction k with
  | zero => rfl
  | succ k ih =>
    have hlast : ¬(List.replicate k S.up).getLast?.any (· ≠ S.up) = true := by
      have hnone : ∀ n ∈ ([] : List (List α)), S.Plain n := by simp
      simpa using getLast?_any_ne_up (k := k) hnone
    rw [List.replicate_succ', List.foldl_append, ih, List.foldl_cons, List.foldl_nil, PathSymbols.push,
      if_neg (by simp [up, here]), if_pos rfl, if_neg hlast]
    rfl

lemma Normal.foldl_push (h : S.Normal rooted ns) : ns.foldl (S.push rooted) [] = ns := by
  obtain ⟨k, rest, rfl, hrest, hk⟩ := h
  rw [List.foldl_append, foldl_push_plain hrest]
  congr 1
  cases rooted with
  | true =>
    rw [hk rfl]
    rfl
  | false => exact foldl_push_up k

lemma isRooted_render (h : S.Normal rooted ns) : S.isRooted (S.render rooted ns) = rooted := by
  cases rooted with
  | true => simp [isRooted, render]
  | false =>
    cases ns with
    | nil => simp [isRooted, render, here, S.ne]
    | cons n ns =>
      obtain ⟨c, n, rfl⟩ := List.exists_cons_of_ne_nil (h.ne_nil n List.mem_cons_self)
      have hc : c ≠ S.sep := fun he => h.noSep _ List.mem_cons_self (he ▸ List.mem_cons_self)
      cases ns <;> simp [isRooted, render, List.intercalate, hc]

lemma names_render (h : S.Normal rooted ns) : S.names (S.render rooted ns) = ns := by
  have hread : S.walk rooted [] ([S.sep].intercalate ns) = ns := by
    by_cases hns : ns = []
    · subst hns
      cases rooted <;> rfl
    · rw [PathSymbols.walk, List.splitOn_intercalate _ h.noSep hns]
      exact h.foldl_push
  rw [names, isRooted_render h, render]
  split
  · exact (walk_append rooted [] [] _).trans hread
  · split
    · rename_i hns
      have hsplit : [S.dot].splitOn S.sep = [[S.dot]] := List.splitOn_eq_singleton (by simp [S.ne.symm])
      rw [PathSymbols.walk, here, hsplit, hns]
      simp [PathSymbols.push, here]
    · exact hread

@[simp] lemma isRooted_clean (p : List α) : S.isRooted (S.clean p) = S.isRooted p := isRooted_render (normal_names p)

@[simp] lemma names_clean (p : List α) : S.names (S.clean p) = S.names p := names_render (normal_names p)

lemma clean_clean (p : List α) : S.clean (S.clean p) = S.clean p := by
  rw [clean, isRooted_clean, names_clean, clean]

lemma clean_congr (hroot : S.isRooted p = S.isRooted q) (hnames : S.names p = S.names q) : S.clean p = S.clean q := by
  rw [clean, clean, hroot, hnames]

lemma clean_ne_nil (p : List α) : S.clean p ≠ [] := by
  intro hnil
  have hnames := congrArg S.names hnil
  have hrooted := congrArg S.isRooted hnil
  rw [names_clean] at hnames
  rw [isRooted_clean] at hrooted
  rw [clean, hrooted, hnames] at hnil
  exact absurd hnil (by simp [isRooted, render, names, PathSymbols.walk, PathSymbols.push, here])

lemma clean_join (hp : p ≠ []) (q : List α) : S.clean (S.join [p, q]) = S.join [p, q] := by
  rw [join_pair hp, clean_clean]

lemma join_clean_left (hp : p ≠ []) (q : List α) : S.join [S.clean p, q] = S.join [p, q] := by
  have hclean := clean_ne_nil (S := S) p
  rw [join_pair hclean, join_pair hp]
  refine clean_congr ?_ ?_
  · rw [isRooted_append hclean, isRooted_append hp, isRooted_clean]
  · rw [names_append hclean, names_append hp, isRooted_clean, names_clean]

/-- A single dot adds as much as nothing. -/
lemma join_here (hp : p ≠ []) : S.join [p, S.here] = S.join [p, []] := by
  have hsplit : S.here.splitOn S.sep = [S.here] := List.splitOn_eq_singleton (by simp [here, S.ne.symm])
  rw [join_pair hp, join_pair hp]
  refine clean_congr ?_ ?_
  · rw [isRooted_append hp, isRooted_append hp]
  · rw [names_append hp, names_append hp, PathSymbols.walk, PathSymbols.walk, hsplit, List.splitOn_nil]
    simp [PathSymbols.push]

/-! ### Below a path -/

lemma Below.trans {r : List α} (h : S.Below p q) (h' : S.Below q r) : S.Below p r := by
  obtain ⟨hroot, rest, hnames, hup⟩ := h
  obtain ⟨hroot', rest', hnames', hup'⟩ := h'
  refine ⟨hroot'.trans hroot, rest ++ rest', ?_, ?_⟩
  · rw [hnames', hnames, List.append_assoc]
  · simp [hup, hup']

lemma below_clean_left : S.Below (S.clean p) q ↔ S.Below p q := by
  simp only [Below, isRooted_clean, names_clean]

lemma below_clean : S.Below p (S.clean q) ↔ S.Below p q := by
  simp only [Below, isRooted_clean, names_clean]

lemma isRooted_join (hp : p ≠ []) (q : List α) : S.isRooted (S.join [p, q]) = S.isRooted p := by
  rw [join_pair hp, isRooted_clean, isRooted_append hp]

/-- What leaves no double dot behind stays below the path that it is added to. -/
lemma below_join (hp : p ≠ []) (h : S.up ∉ S.walk false [] q) : S.Below p (S.join [p, q]) := by
  rw [join_pair hp, below_clean]
  exact ⟨isRooted_append hp, _, (names_append hp q).trans (walk_append_names h), h⟩

/-- What leaves a double dot behind is not below the path that it is added to, if it does not mention its last name. -/
lemma not_below_join {last : List α} (hlast : (S.names p).getLast? = some last) (hup : last ≠ S.up)
    (hq : last ∉ q.splitOn S.sep) (h : S.up ∈ S.walk false [] q) : ¬S.Below p (S.join [p, q]) := by
  obtain ⟨front, hnames⟩ := List.getLast?_eq_some_iff.mp hlast
  have hp : p ≠ [] := by
    rintro rfl
    simp [names, walk, push] at hlast
  rw [join_pair hp, below_clean]
  rintro ⟨-, rest, hbelow, -⟩
  rw [names_append hp, hnames] at hbelow
  have hremoved : (S.walk (S.isRooted p) (front ++ [last]) q)[front.length]? ≠ some last :=
    getElem?_foldl_push_ne hup hq h
  rw [hbelow] at hremoved
  simp at hremoved

lemma plain_of_rooted (hp : S.isRooted p = true) : ∀ n ∈ S.names p, S.Plain n := by
  obtain ⟨k, rest, hnames, hrest, hk⟩ := normal_names (S := S) p
  rw [hk hp, List.replicate_zero, List.nil_append] at hnames
  rw [hnames]
  exact hrest

lemma below_iff_prefixed (hp : S.isRooted p = true) (hq : S.isRooted q = true) :
    S.Below p q ↔ S.names p <+: S.names q := by
  constructor
  · rintro ⟨-, rest, hnames, -⟩
    exact ⟨rest, hnames.symm⟩
  · rintro ⟨rest, hnames⟩
    refine ⟨hq.trans hp.symm, rest, hnames.symm, fun hup => ?_⟩
    exact (plain_of_rooted hq _ (hnames ▸ List.mem_append_right _ hup)).ne_up rfl

/-! ### Relative paths -/

lemma dropCommon_spec {β : Type} [DecidableEq β] (as bs : List β) :
    ∃ common, as = common ++ (dropCommon as bs).1 ∧ bs = common ++ (dropCommon as bs).2 ∧
      ((dropCommon as bs).1 = [] ↔ as <+: bs) := by
  fun_induction dropCommon as bs with
  | case1 as b bs ih =>
    obtain ⟨common, has, hbs, hprefix⟩ := ih
    refine ⟨b :: common, congrArg (b :: ·) has, congrArg (b :: ·) hbs, hprefix.trans ?_⟩
    rw [List.cons_prefix_cons]
    simp
  | case2 a as b bs hne =>
    refine ⟨[], rfl, rfl, ?_⟩
    rw [List.cons_prefix_cons]
    simp [hne]
  | case3 as bs hcons =>
    refine ⟨[], rfl, rfl, ?_⟩
    cases as with
    | nil => simp
    | cons a as =>
      cases bs with
      | nil => simp
      | cons b bs => exact absurd rfl (hcons a as b bs rfl)

/-- A relative path that begins with a double dot. -/
def climbs (S : PathSymbols α) (r : List α) : Bool := r = S.up || (S.up ++ [S.sep]).isPrefixOf r

lemma climbs_iff : S.climbs p = true ↔ (p.splitOn S.sep).head? = some S.up := by
  have hup : S.up.splitOn S.sep = [S.up] := List.splitOn_eq_singleton up_noSep
  simp only [climbs, Bool.or_eq_true, decide_eq_true_eq, List.isPrefixOf_iff_prefix]
  constructor
  · rintro (rfl | ⟨q, rfl⟩)
    · rw [hup]
      rfl
    · rw [List.append_assoc, List.singleton_append, splitOn_append_sep, hup]
      rfl
  · intro hhead
    obtain ⟨rest, hparts⟩ : ∃ rest, p.splitOn S.sep = S.up :: rest := by
      cases hsplit : p.splitOn S.sep with
      | nil => simp [hsplit] at hhead
      | cons n rest => exact ⟨rest, by simpa [hsplit] using hhead⟩
    have hp : [S.sep].intercalate (p.splitOn S.sep) = p := List.intercalate_splitOn S.sep
    rw [hparts] at hp
    cases rest with
    | nil => exact .inl (by simpa [List.intercalate] using hp.symm)
    | cons n rest => exact .inr ⟨[S.sep].intercalate (n :: rest), by simpa [List.intercalate] using hp⟩

/-- Between rooted paths the relative path exists, and it climbs unless the second path is below the first. -/
lemma rel_rooted (hp : S.isRooted p = true) (hq : S.isRooted q = true) :
    ∃ r, S.rel p q = some r ∧ (S.climbs r = true ↔ ¬S.Below p q) := by
  obtain ⟨common, hbase, htarg, hprefix⟩ := dropCommon_spec (S.names p) (S.names q)
  unfold rel
  rw [if_neg (by rw [hp, hq]; simp)]
  rw [below_iff_prefixed hp hq, ← hprefix]
  generalize dropCommon (S.names p) (S.names q) = d at hbase htarg
  obtain ⟨base, targ⟩ := d
  dsimp only at hbase htarg ⊢
  have hbasePlain : ∀ n ∈ base, S.Plain n := fun n hn =>
    plain_of_rooted hp n (hbase ▸ List.mem_append_right common hn)
  have htargPlain : ∀ n ∈ targ, S.Plain n := fun n hn =>
    plain_of_rooted hq n (htarg ▸ List.mem_append_right common hn)
  have hhead : ¬base.head? = some S.up := fun he =>
    (hbasePlain S.up (List.mem_of_mem_head? he)).ne_up rfl
  rw [if_neg hhead]
  refine ⟨_, rfl, ?_⟩
  rw [climbs_iff]
  have hnosep : ∀ n ∈ base.map (fun _ => S.up) ++ targ, S.sep ∉ n := by
    intro n hn
    rcases List.mem_append.mp hn with hn | hn
    · obtain ⟨-, -, rfl⟩ := List.mem_map.mp hn
      exact up_noSep
    · exact (htargPlain n hn).noSep
  cases base with
  | nil =>
    simp only [List.map_nil, List.nil_append, not_true_eq_false, iff_false]
    intro hclimb
    by_cases htarg : targ = []
    · rw [htarg, render, if_neg (by simp), if_pos rfl, here, List.splitOn_eq_singleton (by simp [S.ne.symm])] at hclimb
      simp [up] at hclimb
    · rw [render, if_neg (by simp), if_neg htarg, List.splitOn_intercalate _ (by simpa using hnosep) htarg] at hclimb
      exact (htargPlain S.up (List.mem_of_mem_head? hclimb)).ne_up rfl
  | cons n base =>
    rw [render, if_neg (by simp), if_neg (by simp), List.splitOn_intercalate _ hnosep (by simp)]
    simp

end PathSymbols

end Library
