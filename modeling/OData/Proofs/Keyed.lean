import Mathlib
import OData.Keyed

namespace OData.Keyed

variable {α β : Type}

/-- The last value that a list of entries gives a key. -/
def last? (entries : Keyed α) (key : String) : Option α := entries.reverse.lookup key

theorem keys_insert (key : String) (value : α) (entries : Keyed α) :
    keys (insert key value entries) =
      if key ∈ keys entries then keys entries else keys entries ++ [key] := by
  induction entries with
  | nil => rfl
  | cons entry entries ih =>
    by_cases same : entry.1 = key
    · simp [insert, keys, same]
    · have passed : keys (insert key value (entry :: entries)) =
          entry.1 :: keys (insert key value entries) := by
        simp only [insert, if_neg same, keys, List.map_cons]
      have member : key ∈ keys (entry :: entries) ↔ key ∈ keys entries := by
        simp [keys, Ne.symm same]
      rw [passed, ih]
      by_cases found : key ∈ keys entries
      · rw [if_pos found, if_pos (member.mpr found)]
        rfl
      · rw [if_neg found, if_neg fun inAll => found (member.mp inAll)]
        rfl

theorem insert_of_not_mem {key : String} {entries : Keyed α} (value : α)
    (absent : key ∉ keys entries) : insert key value entries = entries ++ [(key, value)] := by
  induction entries with
  | nil => rfl
  | cons entry entries ih =>
    rw [keys, List.map_cons, List.mem_cons, not_or] at absent
    rw [insert, if_neg (Ne.symm absent.1), ih absent.2, List.cons_append]

theorem extend_cons (base : Keyed α) (key : String) (value : α) (overlay : Keyed α) :
    extend base ((key, value) :: overlay) = extend (insert key value base) overlay := rfl

theorem lookup_cons (name : String) (entry : String × α) (entries : Keyed α) :
    (entry :: entries).lookup name =
      if name = entry.1 then some entry.2 else entries.lookup name := by
  by_cases same : name = entry.1
  · rw [if_pos same, List.lookup, beq_iff_eq.mpr same]
  · rw [if_neg same, List.lookup, beq_false_of_ne same]

theorem lookup_insert (name key : String) (value : α) (entries : Keyed α) :
    (insert key value entries).lookup name =
      if name = key then some value else entries.lookup name := by
  induction entries with
  | nil => exact lookup_cons name (key, value) []
  | cons entry entries ih =>
    by_cases same : entry.1 = key
    · rw [insert, if_pos same, lookup_cons, lookup_cons, same]
      by_cases asked : name = key
      · rw [if_pos asked, if_pos asked]
      · rw [if_neg asked, if_neg asked, if_neg asked]
    · rw [insert, if_neg same, lookup_cons, lookup_cons, ih]
      by_cases first : name = entry.1
      · rw [if_pos first, if_pos first, first, if_neg same]
      · rw [if_neg first, if_neg first]

/-- Looking up from the back finds the last entry of a key. -/
theorem lookup_reverse_eq_some {key : String} {value : α} {entries : Keyed α} :
    entries.reverse.lookup key = some value ↔
      ∃ front rest, entries = front ++ (key, value) :: rest ∧ ∀ later ∈ rest, later.1 ≠ key := by
  rw [List.lookup_eq_some_iff]
  constructor
  · rintro ⟨later, earlier, split, others⟩
    refine ⟨earlier.reverse, later.reverse, ?_, fun entry member same => ?_⟩
    · have forward := congrArg List.reverse split
      simpa using forward
    · exact bne_iff_ne.mp (others entry (List.mem_reverse.mp member)) same.symm
  · rintro ⟨front, rest, rfl, last⟩
    refine ⟨rest.reverse, front.reverse, by simp, fun entry member => ?_⟩
    exact bne_iff_ne.mpr fun same => last entry (List.mem_reverse.mp member) same.symm

theorem lookup_reverse_eq_none {key : String} {entries : Keyed α} :
    entries.reverse.lookup key = none ↔ ∀ entry ∈ entries, entry.1 ≠ key := by
  simp only [List.lookup_eq_none_iff, List.mem_reverse, bne_iff_ne, ne_comm]

theorem lookup_map (write : α → β) (key : String) (entries : Keyed α) :
    (entries.map (Prod.map id write)).lookup key = (entries.lookup key).map write := by
  induction entries with
  | nil => rfl
  | cons entry entries ih =>
    rw [List.map_cons, lookup_cons, lookup_cons, ih]
    by_cases same : key = entry.1
    · rw [if_pos same, if_pos (show key = (Prod.map id write entry).1 from same)]
      rfl
    · rw [if_neg same, if_neg (show key ≠ (Prod.map id write entry).1 from same)]

theorem lookup_insertSorted (name key : String) (value : α) (entries : Keyed α) :
    (insertSorted key value entries).lookup name =
      if name = key then some value else entries.lookup name := by
  induction entries with
  | nil => exact lookup_cons name (key, value) []
  | cons entry entries ih =>
    rw [insertSorted]
    by_cases same : entry.1 = key
    · rw [if_pos same, lookup_cons, lookup_cons, same]
      by_cases asked : name = key
      · rw [if_pos asked, if_pos asked]
      · rw [if_neg asked, if_neg asked, if_neg asked]
    · rw [if_neg same]
      by_cases before : key < entry.1
      · rw [if_pos before]
        exact lookup_cons name (key, value) (entry :: entries)
      · rw [if_neg before, lookup_cons, lookup_cons, ih]
        by_cases first : name = entry.1
        · rw [if_pos first, if_pos first, first, if_neg same]
        · rw [if_neg first, if_neg first]

/-- However a single value is put in: what is put in goes over what was there, and of what is put in twice
the last one stays. -/
theorem lookup_foldl {put : String → α → Keyed α → Keyed α}
    (puts : ∀ name key value entries,
      (put key value entries).lookup name = if name = key then some value else entries.lookup name)
    (name : String) (base overlay : Keyed α) :
    (overlay.foldl (fun entries (key, value) => put key value entries) base).lookup name =
      (overlay.reverse.lookup name).or (base.lookup name) := by
  induction overlay generalizing base with
  | nil => rfl
  | cons entry overlay ih =>
    have single : ([entry] : Keyed α).lookup name = if name = entry.1 then some entry.2 else none :=
      lookup_cons name entry []
    rw [List.foldl_cons, ih, puts, List.reverse_cons, List.lookup_append, Option.or_assoc, single]
    by_cases same : name = entry.1
    · rw [if_pos same, if_pos same, Option.some_or]
    · rw [if_neg same, if_neg same, Option.none_or]

theorem lookup_extend (name : String) (base overlay : Keyed α) :
    (extend base overlay).lookup name = (overlay.reverse.lookup name).or (base.lookup name) :=
  lookup_foldl lookup_insert name base overlay

theorem lookup_extendSorted (name : String) (base overlay : Keyed α) :
    (extendSorted base overlay).lookup name = (overlay.reverse.lookup name).or (base.lookup name) :=
  lookup_foldl lookup_insertSorted name base overlay

/-- Entries with an overlay over them, as they are found: keys that were there stay where they are and new
ones follow as they first come, and what the overlay says last about a key goes over what was there. -/
structure Overlaid (base overlay merged : Keyed α) : Prop where
  order : keys merged = keys base ++ ((keys overlay).filter (· ∉ keys base)).eraseDups
  value : ∀ key, merged.lookup key = (last? overlay key).or (base.lookup key)

theorem keys_extend (base overlay : Keyed α) :
    keys (extend base overlay) =
      keys base ++ ((keys overlay).filter (· ∉ keys base)).eraseDups := by
  induction overlay generalizing base with
  | nil => exact (List.append_nil _).symm
  | cons entry overlay ih =>
    have head : keys (entry :: overlay) = entry.1 :: keys overlay := rfl
    rw [extend_cons, ih, keys_insert, head]
    by_cases present : entry.1 ∈ keys base
    · rw [if_pos present, List.filter_cons_of_neg (by simpa using present)]
    · have fresh : (keys overlay).filter (· ∉ keys base ++ [entry.1]) =
          ((keys overlay).filter (· ∉ keys base)).filter fun key => !key == entry.1 := by
        rw [List.filter_filter]
        refine List.filter_congr fun key _ => ?_
        rw [Bool.eq_iff_iff]
        simp [and_comm]
      rw [if_neg present, List.filter_cons_of_pos (by simpa using present), List.eraseDups_cons, fresh,
        List.append_assoc, List.singleton_append]

theorem overlaid_extend (base overlay : Keyed α) : Overlaid base overlay (extend base overlay) :=
  ⟨keys_extend base overlay, fun key => lookup_extend key base overlay⟩

/-- Where no key repeats, the order of the keys and what is found under them are all there is. -/
theorem ext_of_nodup {left right : Keyed α} (distinct : (keys left).Nodup)
    (order : keys left = keys right) (found : ∀ key, left.lookup key = right.lookup key) :
    left = right := by
  induction left generalizing right with
  | nil =>
    cases right with
    | nil => rfl
    | cons entry right => cases order
  | cons first left ih =>
    cases right with
    | nil => cases order
    | cons second right =>
      obtain ⟨key, value⟩ := first
      obtain ⟨other, another⟩ := second
      obtain ⟨rfl, rest⟩ : key = other ∧ keys left = keys right := List.cons.inj order
      obtain ⟨absent, distinct⟩ := List.nodup_cons.mp distinct
      have head := found key
      rw [lookup_cons, lookup_cons, if_pos rfl, if_pos rfl] at head
      obtain rfl := Option.some.inj head
      refine congrArg _ (ih distinct rest fun name => ?_)
      by_cases same : name = key
      · have missing (entries : Keyed α) (without : key ∉ keys entries) :
            entries.lookup key = none :=
          List.lookup_eq_none_iff.mpr fun entry member =>
            bne_iff_ne.mpr fun equal => without (equal ▸ List.mem_map_of_mem member)
        rw [same, missing left absent, missing right (rest ▸ absent)]
      · have later := found name
        rwa [lookup_cons, lookup_cons, if_neg same, if_neg same] at later

/-- Entries that are left out by their keys are not found, and the others still are. -/
theorem lookup_filter (name : String) (kept : String → Bool) (entries : Keyed α) :
    (entries.filter fun entry => kept entry.1).lookup name =
      if kept name then entries.lookup name else none := by
  induction entries with
  | nil => exact (ite_self none).symm
  | cons entry entries ih =>
    rw [List.filter_cons, lookup_cons]
    by_cases same : name = entry.1
    · subst same
      cases keeps : kept entry.1 with
      | true => rw [if_pos rfl, lookup_cons, if_pos rfl, if_pos rfl, if_pos rfl]
      | false => rw [if_neg Bool.false_ne_true, ih, keeps, if_neg Bool.false_ne_true,
          if_neg Bool.false_ne_true]
    · rw [if_neg same]
      split
      · rw [lookup_cons, if_neg same, ih]
      · exact ih

theorem keys_extend_nodup {base : Keyed α} (distinct : (keys base).Nodup) (overlay : Keyed α) :
    (keys (extend base overlay)).Nodup := by
  induction overlay generalizing base with
  | nil => exact distinct
  | cons entry overlay ih =>
    refine ih ?_
    rw [keys_insert]
    split
    case isTrue => exact distinct
    case isFalse absent =>
      rw [← List.concat_eq_append]
      exact (List.nodup_concat _ _).mpr ⟨absent, distinct⟩

theorem Overlaid.eq_extend {base overlay merged : Keyed α} (overlaid : Overlaid base overlay merged)
    (distinct : (keys base).Nodup) : merged = extend base overlay := by
  have order : keys merged = keys (extend base overlay) :=
    overlaid.order.trans (keys_extend base overlay).symm
  refine ext_of_nodup (order ▸ keys_extend_nodup distinct overlay) order fun key => ?_
  exact (overlaid.value key).trans (lookup_extend key base overlay).symm

/-- No key is left twice. -/
theorem keys_ofList_nodup (entries : Keyed α) : (keys (ofList entries)).Nodup := by
  have empty : (keys ([] : Keyed α)).Nodup := List.nodup_nil
  exact keys_extend_nodup empty entries

theorem mem_insert {key : String} {value : α} {entries : Keyed α} {entry : String × α}
    (member : entry ∈ insert key value entries) : entry = (key, value) ∨ entry ∈ entries := by
  induction entries with
  | nil => exact Or.inl (List.mem_singleton.mp member)
  | cons first entries ih =>
    by_cases same : first.1 = key
    · rw [insert, if_pos same, List.mem_cons, same] at member
      exact member.imp_right (List.mem_cons_of_mem _)
    · rw [insert, if_neg same, List.mem_cons] at member
      rcases member with rfl | inRest
      · exact Or.inr (List.mem_cons_self ..)
      · exact (ih inRest).imp_right (List.mem_cons_of_mem _)

theorem mem_extend {base overlay : Keyed α} {entry : String × α}
    (member : entry ∈ extend base overlay) : entry ∈ base ∨ entry ∈ overlay := by
  induction overlay generalizing base with
  | nil => exact Or.inl member
  | cons first overlay ih =>
    rcases ih member with inserted | inRest
    · rcases mem_insert inserted with rfl | old
      · exact Or.inr (List.mem_cons_self ..)
      · exact Or.inl old
    · exact Or.inr (List.mem_cons_of_mem _ inRest)

/-- Nothing is left that was not there. -/
theorem mem_ofList {entries : Keyed α} {entry : String × α} (member : entry ∈ ofList entries) :
    entry ∈ entries :=
  (mem_extend member).resolve_left List.not_mem_nil

theorem keys_ofList_subset (entries : Keyed α) : keys (ofList entries) ⊆ keys entries :=
  List.map_subset _ fun _ member => mem_ofList member

theorem extend_of_nodup {base overlay : Keyed α} (distinct : (keys (base ++ overlay)).Nodup) :
    extend base overlay = base ++ overlay := by
  induction overlay generalizing base with
  | nil => exact (List.append_nil base).symm
  | cons entry overlay ih =>
    have absent : entry.1 ∉ keys base := by
      intro member
      rw [keys, List.map_append, List.nodup_append] at distinct
      exact distinct.2.2 _ member _ (List.mem_cons_self ..) rfl
    have rest : (keys (base ++ [(entry.1, entry.2)] ++ overlay)).Nodup := by
      rw [List.append_assoc]
      exact distinct
    rw [extend_cons, insert_of_not_mem _ absent, ih rest, List.append_assoc]
    rfl

/-- Nothing happens to entries whose keys do not repeat. -/
theorem ofList_of_nodup {entries : Keyed α} (distinct : (keys entries).Nodup) :
    ofList entries = entries :=
  extend_of_nodup distinct

theorem lookup_reverse_of_nodup {entries : Keyed α} (distinct : (keys entries).Nodup) (key : String) :
    entries.reverse.lookup key = entries.lookup key := by
  have found := lookup_extend key [] entries
  rw [show extend [] entries = entries from ofList_of_nodup distinct] at found
  exact (found.trans Option.or_none).symm

/-- Resolving once is enough. -/
theorem ofList_ofList (entries : Keyed α) : ofList (ofList entries) = ofList entries :=
  ofList_of_nodup (keys_ofList_nodup entries)

/-- Entries are lost exactly where keys repeat. -/
theorem length_ofList_eq_iff {entries : Keyed α} :
    (ofList entries).length = entries.length ↔ (keys entries).Nodup := by
  constructor
  · intro same
    have inside := List.subperm_of_subset (keys_ofList_nodup entries) (keys_ofList_subset entries)
    have lengths : (keys entries).length ≤ (keys (ofList entries)).length := by
      simp [keys, same]
    exact (inside.perm_of_length_le lengths).nodup_iff.mp (keys_ofList_nodup entries)
  · intro distinct
    rw [ofList_of_nodup distinct]

theorem insert_map (write : α → β) (key : String) (value : α) (entries : Keyed α) :
    insert key (write value) (entries.map (Prod.map id write)) =
      (insert key value entries).map (Prod.map id write) := by
  induction entries with
  | nil => rfl
  | cons entry entries ih =>
    by_cases same : entry.1 = key
    · simp [insert, same]
    · simp [insert, same, ih, Prod.map]

theorem extend_map (write : α → β) (base overlay : Keyed α) :
    extend (base.map (Prod.map id write)) (overlay.map (Prod.map id write)) =
      (extend base overlay).map (Prod.map id write) := by
  induction overlay generalizing base with
  | nil => rfl
  | cons entry overlay ih =>
    have step := ih (insert entry.1 entry.2 base)
    rw [← insert_map] at step
    exact step

/-- The values may be changed before or after. -/
theorem ofList_map (write : α → β) (entries : Keyed α) :
    ofList (entries.map (Prod.map id write)) = (ofList entries).map (Prod.map id write) :=
  extend_map write [] entries

end OData.Keyed
