import HamiCloud.Proofs.Generations
import HamiCloud.Proofs.Naming

/-!
# Names of cluster resources

`sanitizeResourceName` makes an RFC 1123 label of every text and leaves a label as it is. The deterministic names of the
intents are labels, so the runners create, look up and delete them under the names that are stored.
-/

namespace HamiCloud

inductive WorkloadKind
  | svc
  | job
  deriving DecidableEq

def WorkloadKind.tag : WorkloadKind → String
  | svc => "hc-svc-"
  | job => "hc-job-"

/-- The `deterministic_resource_name` of `CreateServiceReleaseIntent` and `CreateJobAttemptIntent`, for the text of an
id. -/
def workloadName (kind : WorkloadKind) (id : String) (n : Nat) : String := kind.tag ++ id ++ "-" ++ toString n

/-- First and last characters of a label. -/
def isLabelEnd (c : Char) : Bool := ('a' ≤ c && c ≤ 'z') || ('0' ≤ c && c ≤ '9')

/-- RFC 1123: 1 to 63 characters of `[a-z0-9-]`, of which the first and the last are alphanumeric. -/
def isRfc1123Label (s : String) : Bool :=
  1 ≤ s.length && s.length ≤ 63 && s.toList.all isSlugChar && s.toList.head?.all isLabelEnd &&
    s.toList.getLast?.all isLabelEnd

def isLowerHex (c : Char) : Bool := ('a' ≤ c && c ≤ 'f') || ('0' ≤ c && c ≤ '9')

/-- The canonical text of a UUID, in lower case. -/
def isCanonicalUuid (u : String) : Bool :=
  u.length = 36 && u.toList.zipIdx.all fun (c, i) => if i ∈ [8, 13, 18, 23] then c = '-' else isLowerHex c

namespace Proofs

variable {s u : String} {l : List Char} {c : Char}

lemma isLabelEnd_iff : isLabelEnd c = true ↔ isSlugChar c = true ∧ c ≠ '-' := by
  rw [isSlugChar, Bool.or_eq_true, ← isLabelEnd, decide_eq_true_eq]
  constructor
  · rintro h
    refine ⟨.inl h, ?_⟩
    rintro rfl
    cases h
  · rintro ⟨h | h, hne⟩
    · exact h
    · exact absurd h hne

/-! ### The result is a label -/

/-- Characters that are kept, with neither a hyphen at an end nor too many of them. -/
structure LabelChars (l : List Char) : Prop where
  kept : ∀ c ∈ l, isSlugChar c = true
  head : ∀ c, l.head? = some c → c ≠ '-'
  last : ∀ c, l.getLast? = some c → c ≠ '-'

lemma getLast?_rdropWhile (l : List Char) (h : (l.rdropWhile (· = '-')).getLast? = some c) : c ≠ '-' := by
  have hne : l.rdropWhile (· = '-') ≠ [] := by
    intro hnil
    rw [hnil] at h
    cases h
  rw [List.getLast?_eq_some_getLast hne, Option.some.injEq] at h
  simpa [h] using List.rdropWhile_last_not (· = '-') l hne

lemma head?_of_prefixed {l' : List Char} (hpre : l' <+: l) (h : l'.head? = some c) : l.head? = some c := by
  obtain ⟨r, rfl⟩ := hpre
  rw [List.head?_append, h]
  rfl

lemma LabelChars.trim (h : ∀ c ∈ l, isSlugChar c = true) : LabelChars (trimHyphens l) where
  kept := by
    intro c hc
    exact h c ((List.dropWhile_sublist _).subset ((List.rdropWhile_prefix _ _).subset hc))
  head := by
    intro c hc
    have hnot := List.head?_dropWhile_not (· = '-') l
    rw [head?_of_prefixed (List.rdropWhile_prefix _ _) hc] at hnot
    simpa using hnot
  last := fun _ hc => getLast?_rdropWhile _ hc

lemma LabelChars.cut (h : LabelChars l) : LabelChars ((l.take 63).rdropWhile (· = '-')) where
  kept := fun c hc => h.kept c ((List.take_subset _ _) ((List.rdropWhile_prefix _ _).subset hc))
  head := fun c hc => h.head c (head?_of_prefixed ((List.rdropWhile_prefix _ _).trans (List.take_prefix _ _)) hc)
  last := fun _ hc => getLast?_rdropWhile _ hc

lemma isRfc1123Label_of_chars (h : LabelChars l) (hlen : l.length ≤ 63) :
    isRfc1123Label (if l = [] then "workload" else String.ofList l) = true := by
  split
  · decide
  rename_i hne
  simp only [isRfc1123Label, Bool.and_eq_true, decide_eq_true_eq, String.toList_ofList, String.length_ofList]
  refine ⟨⟨⟨⟨List.length_pos_of_ne_nil hne, hlen⟩, List.all_eq_true.mpr h.kept⟩, ?_⟩, ?_⟩
  · rw [List.head?_eq_some_head hne, Option.all_some, isLabelEnd_iff]
    exact ⟨h.kept _ (List.head_mem hne), h.head _ (List.head?_eq_some_head hne)⟩
  · rw [List.getLast?_eq_some_getLast hne, Option.all_some, isLabelEnd_iff]
    exact ⟨h.kept _ (List.getLast_mem hne), h.last _ (List.getLast?_eq_some_getLast hne)⟩

lemma sanitizeResourceName_isLabel (s : String) : isRfc1123Label (sanitizeResourceName s) = true := by
  have hchars : ∀ c ∈ (s.toList.map toLowerRune).map fun r => if isSlugChar r then r else '-',
      isSlugChar c = true := by
    intro c hc
    obtain ⟨r, -, rfl⟩ := List.mem_map.mp hc
    split
    · assumption
    · rfl
  have htrim := LabelChars.trim hchars
  unfold sanitizeResourceName
  dsimp only
  split
  · refine isRfc1123Label_of_chars htrim.cut ?_
    exact ((List.rdropWhile_prefix _ _).length_le).trans (List.length_take_le _ _)
  · rename_i hshort
    exact isRfc1123Label_of_chars htrim (Nat.le_of_not_lt hshort)

/-! ### Labels stay as they are -/

lemma sanitizeResourceName_of_isLabel (h : isRfc1123Label s = true) : sanitizeResourceName s = s := by
  simp only [isRfc1123Label, Bool.and_eq_true, decide_eq_true_eq] at h
  obtain ⟨⟨⟨⟨hpos, hlen⟩, hchars⟩, hhead⟩, hlast⟩ := h
  have hne : s.toList ≠ [] := by
    rw [← List.length_pos_iff, String.length_toList]
    exact hpos
  refine sanitizeResourceName_of_kept (List.all_eq_true.mp hchars) hne ?_
  rw [List.head?_eq_some_head hne, Option.all_some, isLabelEnd_iff] at hhead
  rw [List.getLast?_eq_some_getLast hne, Option.all_some, isLabelEnd_iff] at hlast
  simp only [tidySlug, Bool.and_eq_true, decide_eq_true_eq, List.head?_eq_some_head hne,
    List.getLast?_eq_some_getLast hne, ne_eq, Option.some.injEq]
  exact ⟨⟨hlen, hhead.2⟩, hlast.2⟩

/-! ### Names of intents -/

lemma isSlugChar_of_isLowerHex (h : isLowerHex c = true) : isSlugChar c = true := by
  simp only [isLowerHex, isSlugChar, Bool.or_eq_true, Bool.and_eq_true, decide_eq_true_eq] at h ⊢
  rcases h with ⟨ha, hf⟩ | h
  · exact .inl (.inl ⟨ha, Char.le_trans hf (by decide)⟩)
  · exact .inl (.inr h)

lemma canonicalUuid_kept (h : isCanonicalUuid u = true) : ∀ c ∈ u.toList, isSlugChar c = true := by
  simp only [isCanonicalUuid, Bool.and_eq_true, List.all_eq_true] at h
  intro c hc
  obtain ⟨i, hi⟩ := List.mem_iff_getElem?.mp hc
  have hci := h.2 (c, i) (List.mem_zipIdx_iff_getElem?.mpr hi)
  dsimp only at hci
  split at hci
  · rw [decide_eq_true_eq] at hci
    rw [hci]
    rfl
  · exact isSlugChar_of_isLowerHex hci

lemma canonicalUuid_length (h : isCanonicalUuid u = true) : u.toList.length = 36 := by
  simp only [isCanonicalUuid, Bool.and_eq_true, decide_eq_true_eq] at h
  rw [String.length_toList]
  exact h.1

lemma toList_workloadName (kind : WorkloadKind) (u : String) (n : Nat) :
    (workloadName kind u n).toList = kind.tag.toList ++ (u.toList ++ '-' :: (Nat.repr n).toList) := by
  simp only [workloadName, String.toList_append, List.append_assoc]
  rfl

lemma repr_kept (n : Nat) : ∀ c ∈ (Nat.repr n).toList, isSlugChar c = true := by
  intro c hc
  rw [Nat.toList_repr] at hc
  have hdigit := Nat.isDigit_of_mem_toDigits (by decide) (by decide) hc
  simp only [Char.isDigit, Bool.and_eq_true, decide_eq_true_eq] at hdigit
  simp only [isSlugChar, Bool.or_eq_true, Bool.and_eq_true, decide_eq_true_eq]
  exact .inl (.inr hdigit)

lemma tag_length (kind : WorkloadKind) : kind.tag.toList.length = 7 := by
  cases kind <;> simp [WorkloadKind.tag]

lemma workloadName_isLabel (kind : WorkloadKind) (hu : isCanonicalUuid u = true) {n : Nat} (hn : n < 10 ^ 19) :
    isRfc1123Label (workloadName kind u n) = true := by
  have htag : (∀ c ∈ kind.tag.toList, isSlugChar c = true) ∧ kind.tag.toList.head? = some 'h' := by
    cases kind <;> simp [WorkloadKind.tag, isSlugChar]
  have hdigits : (Nat.repr n).toList.length ≤ 19 := by
    rw [String.length_toList]
    exact Nat.repr_length n 19 (by decide) hn
  have hne : (Nat.repr n).toList ≠ [] := by
    rw [Nat.toList_repr]
    exact Nat.toDigits_ne_nil
  have hchars : LabelChars (workloadName kind u n).toList := by
    rw [toList_workloadName]
    constructor
    · intro c hc
      simp only [List.mem_append, List.mem_cons] at hc
      rcases hc with hc | hc | rfl | hc
      · exact htag.1 c hc
      · exact canonicalUuid_kept hu c hc
      · rfl
      · exact repr_kept n c hc
    · intro c hc
      rw [List.head?_append, htag.2] at hc
      obtain rfl : 'h' = c := Option.some.inj hc
      decide
    · rintro c hc rfl
      -- the last character is a digit of the number
      rw [List.getLast?_append, List.getLast?_append, List.getLast?_cons, List.getLast?_eq_some_getLast hne] at hc
      exact dash_notMem_repr n (Option.some.inj hc ▸ List.getLast_mem hne)
  have hlen : (workloadName kind u n).toList.length ≤ 63 := by
    rw [toList_workloadName, List.length_append, List.length_append, List.length_cons, tag_length,
      canonicalUuid_length hu]
    omega
  have hnil : (workloadName kind u n).toList ≠ [] := by
    rw [toList_workloadName]
    simp
  have hlabel := isRfc1123Label_of_chars hchars hlen
  rwa [if_neg hnil, String.ofList_toList] at hlabel

lemma workloadName_inj {kind kind' : WorkloadKind} {u' : String} {n n' : Nat} (hu : isCanonicalUuid u = true)
    (hu' : isCanonicalUuid u' = true) (h : workloadName kind u n = workloadName kind' u' n') :
    kind = kind' ∧ u = u' ∧ n = n' := by
  have hlist := congrArg String.toList h
  rw [toList_workloadName, toList_workloadName] at hlist
  obtain ⟨htag, hrest⟩ := List.append_inj hlist ((tag_length kind).trans (tag_length kind').symm)
  obtain ⟨hid, hnum⟩ := List.append_inj hrest ((canonicalUuid_length hu).trans (canonicalUuid_length hu').symm)
  refine ⟨?_, String.toList_inj.mp hid, Nat.repr_injective (String.toList_inj.mp (List.cons.inj hnum).2)⟩
  cases kind <;> cases kind' <;> simp [WorkloadKind.tag] at htag ⊢

/-- Every text becomes a label, a label stays as it is, and the names of distinct workloads are distinct labels. -/
theorem sanitizeResourceName_stable :
    (∀ s, isRfc1123Label (sanitizeResourceName s) = true) ∧
    (∀ s, sanitizeResourceName (sanitizeResourceName s) = sanitizeResourceName s) ∧
    (∀ s, isRfc1123Label s = true → sanitizeResourceName s = s) ∧
    (∀ kind u n, isCanonicalUuid u = true → n < 10 ^ 19 →
      sanitizeResourceName (workloadName kind u n) = workloadName kind u n) ∧
    ∀ kind kind' u u' n n', isCanonicalUuid u = true → isCanonicalUuid u' = true → n < 10 ^ 19 → n' < 10 ^ 19 →
      (kind, u, n) ≠ (kind', u', n') →
      sanitizeResourceName (workloadName kind u n) ≠ sanitizeResourceName (workloadName kind' u' n') := by
  refine ⟨sanitizeResourceName_isLabel, ?_, fun s => sanitizeResourceName_of_isLabel, ?_, ?_⟩
  · intro s
    exact sanitizeResourceName_of_isLabel (sanitizeResourceName_isLabel s)
  · intro kind u n hu hn
    exact sanitizeResourceName_of_isLabel (workloadName_isLabel kind hu hn)
  · intro kind kind' u u' n n' hu hu' hn hn' hne h
    rw [sanitizeResourceName_of_isLabel (workloadName_isLabel kind hu hn),
      sanitizeResourceName_of_isLabel (workloadName_isLabel kind' hu' hn')] at h
    obtain ⟨rfl, rfl, rfl⟩ := workloadName_inj hu hu' h
    exact hne rfl

theorem sanitizeResourceName_stable_first_generations :
    sanitizeResourceName "hc-svc-6f1c0a52-9f0e-4c55-8a0d-0123456789ab-1" =
      workloadName .svc "6f1c0a52-9f0e-4c55-8a0d-0123456789ab" 1 ∧
    sanitizeResourceName (workloadName .svc "6f1c0a52-9f0e-4c55-8a0d-0123456789ab" 1) ≠
      sanitizeResourceName (workloadName .job "6f1c0a52-9f0e-4c55-8a0d-0123456789ab" 1) := by
  have hname : workloadName .svc "6f1c0a52-9f0e-4c55-8a0d-0123456789ab" 1 =
      "hc-svc-6f1c0a52-9f0e-4c55-8a0d-0123456789ab-1" := by decide +kernel
  refine ⟨?_, ?_⟩
  · rw [hname]
    exact sanitizeResourceName_stable.2.2.1 _ (by decide +kernel)
  · exact sanitizeResourceName_stable.2.2.2.2 _ _ _ _ _ _ (by decide +kernel) (by decide +kernel) (by decide)
      (by decide) (by decide)

end Proofs

end HamiCloud
