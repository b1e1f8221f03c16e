/-!
# Ordered tables

A table keeps one entry per name, in the order in which the names were first entered. Entering a name
again replaces its content and keeps its place. Names are of any type that has decidable equality.
-/

namespace DiceScript

/-- Entries by name, in order of first entry. -/
abbrev Table (ν α : Type) := List (ν × α)

namespace Table

variable {ν α : Type} [DecidableEq ν]

def find? : Table ν α → ν → Option α
  | [], _ => none
  | (key, content) :: rest, name => if key = name then some content else find? rest name

def insert : Table ν α → ν → α → Table ν α
  | [], name, new => [(name, new)]
  | (key, content) :: rest, name, new =>
    if key = name then (key, new) :: rest else (key, content) :: insert rest name new

def names (t : Table ν α) : List ν :=
  t.map Prod.fst

def merge (t new : Table ν α) : Table ν α :=
  new.foldl (fun t entry => insert t entry.1 entry.2) t

def ofList (entries : List (ν × α)) : Table ν α :=
  merge [] entries

@[simp] theorem find?_nil (name : ν) : find? ([] : Table ν α) name = none := rfl

theorem find?_insert (t : Table ν α) (key name : ν) (new : α) :
    find? (insert t key new) name = if key = name then some new else find? t name := by
  induction t with
  | nil => simp [insert, find?]
  | cons entry rest ih =>
    obtain ⟨k, content⟩ := entry
    by_cases same : k = key
    · subst same
      by_cases hit : k = name <;> simp [insert, find?, hit]
    · by_cases hit : k = name
      · subst hit
        have : ¬ key = k := fun h => same h.symm
        simp [insert, find?, same, this]
      · simp [insert, find?, same, hit, ih]

theorem names_insert_of_mem (t : Table ν α) (name : ν) (new : α) (present : name ∈ names t) :
    names (insert t name new) = names t := by
  induction t with
  | nil => simp [names] at present
  | cons entry rest ih =>
    obtain ⟨k, content⟩ := entry
    by_cases same : k = name
    · simp [insert, names, same]
    · have : name ∈ names rest := by
        have : ¬ name = k := fun h => same h.symm
        simpa [names, this] using present
      simpa [insert, names, same] using ih this

theorem find?_eq_none_iff (t : Table ν α) (name : ν) : find? t name = none ↔ name ∉ names t := by
  induction t with
  | nil => simp [names]
  | cons entry rest ih =>
    obtain ⟨k, content⟩ := entry
    by_cases same : k = name
    · simp [find?, names, same]
    · have : ¬ name = k := fun h => same h.symm
      simpa [find?, names, same, this] using ih

theorem mem_of_find? {t : Table ν α} {name : ν} {content : α} (found : find? t name = some content) :
    (name, content) ∈ t := by
  induction t with
  | nil => cases found
  | cons entry rest ih =>
    obtain ⟨k, other⟩ := entry
    by_cases same : k = name
    · simp_all [find?]
    · simp only [find?, same, if_false] at found
      exact List.mem_cons_of_mem _ (ih found)

theorem insert_of_not_mem (t : Table ν α) (name : ν) (new : α) (absent : name ∉ names t) :
    insert t name new = t ++ [(name, new)] := by
  induction t with
  | nil => rfl
  | cons entry rest ih =>
    obtain ⟨k, content⟩ := entry
    simp only [names, List.map_cons, List.mem_cons, not_or] at absent
    have : ¬ k = name := fun h => absent.1 h.symm
    simpa [insert, this] using ih absent.2

theorem names_insert_of_not_mem (t : Table ν α) (name : ν) (new : α) (absent : name ∉ names t) :
    names (insert t name new) = names t ++ [name] := by
  simp [insert_of_not_mem t name new absent, names]

theorem find?_append (t new : Table ν α) (name : ν) :
    find? (t ++ new) name = (find? t name).or (find? new name) := by
  induction t with
  | nil => rfl
  | cons entry rest ih =>
    obtain ⟨k, content⟩ := entry
    by_cases hit : k = name <;> simp [find?, hit, ih]

/-- Of several contents entered under a name the last one counts. -/
theorem find?_merge (t new : Table ν α) (name : ν) :
    find? (merge t new) name = (find? new.reverse name).or (find? t name) := by
  induction new generalizing t with
  | nil => rfl
  | cons entry rest ih =>
    have step : merge t (entry :: rest) = merge (insert t entry.1 entry.2) rest := rfl
    rw [step, ih, find?_insert, List.reverse_cons, find?_append, Option.or_assoc]
    by_cases hit : entry.1 = name <;> simp [find?, hit]

theorem mem_of_mem_insert {t : Table ν α} {name : ν} {new : α} {entry : ν × α} (h : entry ∈ insert t name new) :
    entry = (name, new) ∨ entry ∈ t := by
  induction t with
  | nil => exact .inl (List.mem_singleton.1 h)
  | cons first rest ih =>
    obtain ⟨k, content⟩ := first
    by_cases same : k = name
    · rw [insert, if_pos same, List.mem_cons] at h
      rcases h with h | h
      · exact .inl (same ▸ h)
      · exact .inr (List.mem_cons_of_mem _ h)
    · rw [insert, if_neg same, List.mem_cons] at h
      rcases h with h | h
      · exact .inr (h ▸ List.mem_cons_self)
      · exact (ih h).imp_right (List.mem_cons_of_mem _)

theorem mem_of_mem_merge {t new : Table ν α} {entry : ν × α} (h : entry ∈ merge t new) :
    entry ∈ t ∨ entry ∈ new := by
  induction new generalizing t with
  | nil => exact .inl h
  | cons first rest ih =>
    have h : entry ∈ merge (insert t first.1 first.2) rest := h
    rcases ih h with h | h
    · rcases mem_of_mem_insert h with rfl | h
      · exact .inr List.mem_cons_self
      · exact .inl h
    · exact .inr (List.mem_cons_of_mem _ h)

theorem merge_of_nodup (t new : Table ν α) (distinct : (names (t ++ new)).Nodup) :
    merge t new = t ++ new := by
  induction new generalizing t with
  | nil => simp [merge]
  | cons entry rest ih =>
    have absent : entry.1 ∉ names t := by
      intro present
      rw [names, List.map_append, List.map_cons] at distinct
      exact (List.nodup_append.1 distinct).2.2 _ present _ List.mem_cons_self rfl
    have step : merge t (entry :: rest) = merge (insert t entry.1 entry.2) rest := rfl
    rw [step, insert_of_not_mem t _ _ absent, ih _ (by simpa using distinct)]
    simp

theorem find?_of_mem {t : Table ν α} (distinct : (names t).Nodup) {entry : ν × α} (h : entry ∈ t) :
    find? t entry.1 = some entry.2 := by
  induction t with
  | nil => cases h
  | cons first rest ih =>
    obtain ⟨k, content⟩ := first
    rw [names, List.map_cons, List.nodup_cons] at distinct
    rcases List.mem_cons.1 h with rfl | later
    · simp [find?]
    · have : ¬ k = entry.1 := by
        rintro rfl
        exact distinct.1 (List.mem_map.2 ⟨entry, later, rfl⟩)
      rw [find?, if_neg this]
      exact ih distinct.2 later

theorem insert_of_find? {t : Table ν α} {name : ν} {content : α} (found : find? t name = some content) :
    insert t name content = t := by
  induction t with
  | nil => cases found
  | cons entry rest ih =>
    obtain ⟨k, other⟩ := entry
    by_cases same : k = name
    · simp_all [find?, insert]
    · rw [find?, if_neg same] at found
      rw [insert, if_neg same, ih found]

theorem merge_of_find? {t new : Table ν α} (found : ∀ entry ∈ new, find? t entry.1 = some entry.2) :
    merge t new = t := by
  induction new with
  | nil => rfl
  | cons entry rest ih =>
    have step : merge t (entry :: rest) = merge (insert t entry.1 entry.2) rest := rfl
    obtain ⟨first, others⟩ := List.forall_mem_cons.1 found
    rw [step, insert_of_find? first, ih others]

/-- Entering a table again changes nothing. -/
theorem merge_merge (t : Table ν α) {new : Table ν α} (distinct : (names new).Nodup) :
    merge (merge t new) new = merge t new := by
  refine merge_of_find? fun entry h => ?_
  have distinct' : (names new.reverse).Nodup := by
    rw [names, List.map_reverse]
    exact List.pairwise_reverse.2 (distinct.imp Ne.symm)
  rw [find?_merge, find?_of_mem distinct' (List.mem_reverse.2 h), Option.some_or]

theorem ofList_of_nodup (entries : List (ν × α)) (distinct : (names entries).Nodup) :
    ofList entries = entries :=
  merge_of_nodup [] entries distinct

theorem names_merge (t new : Table ν α) :
    names (merge t new) = names t ++ ((names new).filter (· ∉ names t)).eraseDups := by
  induction new generalizing t with
  | nil => simp [merge, names]
  | cons entry rest ih =>
    have step : merge t (entry :: rest) = merge (insert t entry.1 entry.2) rest := rfl
    have names_cons : names (entry :: rest) = entry.1 :: names rest := rfl
    rw [step, ih, names_cons]
    by_cases present : entry.1 ∈ names t
    · rw [names_insert_of_mem t _ _ present, List.filter_cons_of_neg (by simpa using present)]
    · have others : (names rest).filter (· ∉ names t ++ [entry.1]) =
          ((names rest).filter (· ∉ names t)).filter (fun name => !name == entry.1) := by
        rw [List.filter_filter]
        exact List.filter_congr fun name _ => Bool.eq_iff_iff.2 (by simp [and_comm])
      rw [names_insert_of_not_mem t _ _ present, others, List.filter_cons_of_pos (by simpa using present),
        List.eraseDups_cons, List.append_assoc, List.singleton_append]

theorem nodup_names_insert {t : Table ν α} (distinct : (names t).Nodup) (name : ν) (new : α) :
    (names (insert t name new)).Nodup := by
  by_cases present : name ∈ names t
  · rwa [names_insert_of_mem t _ _ present]
  · rw [names_insert_of_not_mem t _ _ present, List.nodup_append]
    exact ⟨distinct, by simp, by rintro a ha b hb rfl; simp_all⟩

theorem nodup_names_merge {t : Table ν α} (distinct : (names t).Nodup) (new : Table ν α) :
    (names (merge t new)).Nodup := by
  induction new generalizing t with
  | nil => exact distinct
  | cons entry rest ih => exact ih (nodup_names_insert distinct entry.1 entry.2)

theorem nodup_names_ofList (entries : List (ν × α)) : (names (ofList entries)).Nodup :=
  nodup_names_merge (t := []) List.nodup_nil entries

omit [DecidableEq ν] in
theorem contents_eq_filterMap {t : Table ν α} {find : ν → Option α} (h : ∀ entry ∈ t, find entry.1 = some entry.2) :
    t.map Prod.snd = (names t).filterMap find := by
  induction t with
  | nil => rfl
  | cons entry rest ih =>
    obtain ⟨first, others⟩ := List.forall_mem_cons.1 h
    rw [names, List.map_cons, List.map_cons, List.filterMap_cons_some first, ih others, names]

/-- Of several contents entered under a name the last one is there, at the place of the first. -/
theorem contents_ofList (entries : List (ν × α)) :
    (ofList entries).map Prod.snd = (names entries).eraseDups.filterMap (find? entries.reverse) := by
  have order : names (ofList entries) = (names entries).eraseDups := by
    rw [ofList, names_merge, List.filter_eq_self.2 (by simp [names])]
    rfl
  rw [← order]
  refine contents_eq_filterMap fun entry hentry => ?_
  rw [← find?_of_mem (nodup_names_ofList entries) hentry, ofList, find?_merge, find?_nil, Option.or_none]

end Table

end DiceScript
