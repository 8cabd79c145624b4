import Mathlib.Data.List.Induction
import Mathlib.Data.List.InsertIdx
import Mathlib.Data.List.Nodup
import RowReduction.Proofs.Timer.History

/-!
Visits of sections. Every entry into a section is an opening of its own, whatever other sections
have its name, and leaving the section makes a visit of it. Which openings are still open and which
visits have ended is read off a history of calls; the timer keeps the former, and of the latter the
times, added up for each name.
-/
namespace RowReduction.Timer

/-- An entry into a section. Entries of one name at one reading differ in the number of calls that
came before. -/
structure Opening where
  place : Nat
  name : String
  openedAt : Binary64
deriving DecidableEq

/-- The entry into a section and the reading when that section was left. -/
structure Visit where
  opening : Opening
  closedAt : Binary64

namespace Visit

def name (v : Visit) : String := v.opening.name

/-- How long a section was open. -/
def seconds (v : Visit) : Binary64 := v.closedAt - v.opening.openedAt

end Visit

/-- All entries into sections, oldest first. -/
def openings : List Call → List Opening
  | [] => []
  | ⟨now, .openSection name⟩ :: earlier => openings earlier ++ [⟨earlier.length, name, now⟩]
  | _ :: earlier => openings earlier

/-- The entries that no visit has brought to an end. -/
def unclosed (openings : List Opening) (visits : List Visit) : List Opening :=
  openings.filter (· ∉ visits.map Visit.opening)

/-- All visits that have come to an end, in the order in which they did. -/
def visits : List Call → List Visit
  | [] => []
  | ⟨now, .closeSection position⟩ :: earlier =>
    match (unclosed (openings earlier) (visits earlier))[position]? with
    | none => visits earlier
    | some opening => visits earlier ++ [⟨opening, now⟩]
  | _ :: earlier => visits earlier

/-- The entries into the sections that are still open, oldest first. -/
def pending (history : List Call) : List Opening := unclosed (openings history) (visits history)

/-- The names of the sections that have been left, each where it first was. -/
def closedNames (visits : List Visit) : List String := (visits.map Visit.name).eraseDups

/-- The time spent in all visits of a name, summed up in their order. -/
def spent (visits : List Visit) (name : String) : Binary64 :=
  (visits.filter (·.name = name)).foldl (fun sum v => sum + v.seconds) .zero

/-- The time spent in the visits of each name. -/
def tally (visits : List Visit) : List (String × Binary64) :=
  (closedNames visits).map fun name => (name, spent visits name)

/-! ## Openings -/

theorem place_lt_length {history : List Call} {o : Opening} (h : o ∈ openings history) :
    o.place < history.length := by
  induction history with
  | nil => cases h
  | cons call earlier ih =>
      obtain ⟨now, event⟩ := call
      rw [List.length_cons]
      cases event with
      | openSection name =>
          rcases List.mem_append.mp h with hearlier | hnew
          · exact Nat.lt_succ_of_lt (ih hearlier)
          · rw [List.mem_singleton.mp hnew]
            exact Nat.lt_succ_self _
      | _ => exact Nat.lt_succ_of_lt (ih h)

/-- No two entries are the same. -/
theorem nodup_openings (history : List Call) : (openings history).Nodup := by
  induction history with
  | nil => exact List.nodup_nil
  | cons call earlier ih =>
      obtain ⟨now, event⟩ := call
      cases event with
      | openSection name =>
          refine List.nodup_append.mpr ⟨ih, List.nodup_singleton _, ?_⟩
          intro o ho new hnew heq
          have hplace := place_lt_length ho
          rw [heq, List.mem_singleton.mp hnew] at hplace
          exact Nat.lt_irrefl _ hplace
      | _ => exact ih

theorem mem_openings_of_getElem?_pending {history : List Call} {position : Nat} {o : Opening}
    (h : (pending history)[position]? = some o) : o ∈ openings history :=
  List.mem_of_mem_filter (List.mem_of_getElem? h)

theorem visits_closeSection_of_none (now : Binary64) {history : List Call} {position : Nat}
    (h : (pending history)[position]? = none) :
    visits (⟨now, .closeSection position⟩ :: history) = visits history := by
  rw [pending] at h
  rw [visits, h]

theorem visits_closeSection_of_some (now : Binary64) {history : List Call} {position : Nat}
    {o : Opening} (h : (pending history)[position]? = some o) :
    visits (⟨now, .closeSection position⟩ :: history) = visits history ++ [⟨o, now⟩] := by
  rw [pending] at h
  rw [visits, h]

/-- What has been left had been entered. -/
theorem opening_mem_of_mem_visits {history : List Call} {v : Visit} (h : v ∈ visits history) :
    v.opening ∈ openings history := by
  induction history with
  | nil => cases h
  | cons call earlier ih =>
      obtain ⟨now, event⟩ := call
      cases event with
      | openSection name => exact List.mem_append_left _ (ih h)
      | closeSection position =>
          cases hpending : (pending earlier)[position]? with
          | none =>
              rw [visits_closeSection_of_none now hpending] at h
              exact ih h
          | some o =>
              rw [visits_closeSection_of_some now hpending] at h
              rcases List.mem_append.mp h with hearlier | hnew
              · exact ih hearlier
              · rw [List.mem_singleton.mp hnew]
                show o ∈ openings earlier
                exact mem_openings_of_getElem?_pending hpending
      | _ => exact ih h

theorem pending_openSection (now : Binary64) (name : String) (history : List Call) :
    pending (⟨now, .openSection name⟩ :: history) =
      pending history ++ [⟨history.length, name, now⟩] := by
  have hnew : (⟨history.length, name, now⟩ : Opening) ∉ (visits history).map Visit.opening := by
    intro h
    obtain ⟨v, hv, heq⟩ := List.mem_map.mp h
    have hplace := place_lt_length (opening_mem_of_mem_visits hv)
    rw [heq] at hplace
    exact Nat.lt_irrefl _ hplace
  show unclosed (openings history ++ [_]) (visits history) = _
  rw [unclosed, List.filter_append, List.filter_singleton, decide_eq_true hnew]
  rfl

/-- One more visit ends one entry. -/
theorem unclosed_concat (openings : List Opening) (visits : List Visit) (v : Visit) :
    unclosed openings (visits ++ [v]) = (unclosed openings visits).filter (· != v.opening) := by
  rw [unclosed, unclosed, List.filter_filter]
  apply List.filter_congr
  intro o _
  rw [List.map_append, List.map_singleton, Bool.eq_iff_iff]
  simp [and_comm]

/-- **Leaving a section takes away its entry.** -/
theorem pending_closeSection (now : Binary64) (position : Nat) (history : List Call) :
    pending (⟨now, .closeSection position⟩ :: history) = (pending history).eraseIdx position := by
  show unclosed (openings history) (visits _) = _
  cases h : (pending history)[position]? with
  | none =>
      rw [visits_closeSection_of_none now h]
      exact (List.eraseIdx_of_length_le (List.getElem?_eq_none_iff.mp h)).symm
  | some o =>
      obtain ⟨hposition, rfl⟩ := List.getElem?_eq_some_iff.mp h
      have hnodup : (pending history).Nodup := (nodup_openings history).filter _
      rw [visits_closeSection_of_some now h, unclosed_concat, ← hnodup.erase_getElem position hposition,
        hnodup.erase_eq_filter]
      rfl

/-- What a timer keeps of an entry. -/
def Opening.entry (o : Opening) : String × Binary64 := (o.name, o.openedAt)

/-- **The open sections are those that have been entered and not been left.** -/
theorem opened_after (history : List Call) :
    (after history).opened = (pending history).map Opening.entry := by
  induction history with
  | nil => rfl
  | cons call earlier ih =>
      obtain ⟨now, event⟩ := call
      cases event with
      | start => exact ih
      | stop =>
          obtain ⟨total, htotal⟩ := exists_after_stop now earlier
          rw [htotal]
          exact ih
      | openSection name =>
          rw [after_openSection, pending_openSection, List.map_append, ih]
          rfl
      | closeSection position =>
          rw [pending_closeSection, ← List.eraseIdx_map, ← ih]
          cases hopened : (after earlier).opened[position]? with
          | none =>
              rw [after_closeSection_of_none now hopened]
              exact (List.eraseIdx_of_length_le (List.getElem?_eq_none_iff.mp hopened)).symm
          | some entry => rw [after_closeSection_of_some now hopened]
      | result =>
          rw [after_result]
          exact ih

/-! ## Time spent -/

theorem closedNames_concat (visits : List Visit) (v : Visit) :
    closedNames (visits ++ [v]) =
      if v.name ∈ closedNames visits then closedNames visits
      else closedNames visits ++ [v.name] := by
  rw [closedNames, closedNames, List.map_append, List.map_singleton, List.eraseDups_append]
  simp only [List.mem_eraseDups]
  split
  · rename_i h
    rw [List.removeAll, List.filter_singleton]
    simp [h]
  · rename_i h
    rw [List.removeAll, List.filter_singleton]
    simp [h, List.eraseDups_cons]

theorem nodup_closedNames (visits : List Visit) : (closedNames visits).Nodup := by
  induction visits using List.reverseRecOn with
  | nil => exact List.nodup_nil
  | append_singleton visits v ih =>
      rw [closedNames_concat]
      split
      · exact ih
      · rename_i h
        rw [← List.concat_eq_append]
        exact ih.concat h

theorem spent_concat (visits : List Visit) (v : Visit) (name : String) :
    spent (visits ++ [v]) name =
      if v.name = name then spent visits name + v.seconds else spent visits name := by
  rw [spent, spent, List.filter_append, List.filter_singleton]
  split
  · rename_i h
    rw [decide_eq_true h]
    exact List.foldl_concat _ _ _ _
  · rename_i h
    rw [decide_eq_false h]
    exact congrArg (List.foldl _ _) (List.append_nil _)

theorem spent_of_not_mem {visits : List Visit} {name : String} (h : name ∉ closedNames visits) :
    spent visits name = .zero := by
  have hnone : visits.filter (·.name = name) = [] := by
    rw [List.filter_eq_nil_iff]
    intro v hv hname
    apply h
    rw [closedNames, List.mem_eraseDups, ← of_decide_eq_true hname]
    exact List.mem_map_of_mem hv
  rw [spent, hnone]
  rfl

theorem addTo_of_mem {name : String} {keys : List String} (hmem : name ∈ keys)
    (hnodup : keys.Nodup) (elapsed : Binary64) (f : String → Binary64) :
    addTo name elapsed (keys.map fun k => (k, f k)) =
      keys.map fun k => (k, if name = k then f k + elapsed else f k) := by
  induction keys with
  | nil => cases hmem
  | cons key rest ih =>
      obtain ⟨hkey, hrest⟩ := List.nodup_cons.mp hnodup
      rw [List.map_cons, List.map_cons, addTo]
      by_cases heq : key = name
      · subst heq
        rw [if_pos rfl, if_pos rfl, List.cons_inj_right]
        apply List.map_congr_left
        intro k hk
        rw [if_neg fun h : key = k => hkey (h ▸ hk)]
      · rw [if_neg heq, if_neg (Ne.symm heq)]
        rw [ih ((List.mem_cons.mp hmem).resolve_left (Ne.symm heq)) hrest]

theorem addTo_of_not_mem {name : String} {keys : List String} (hmem : name ∉ keys)
    (elapsed : Binary64) (f : String → Binary64) :
    addTo name elapsed (keys.map fun k => (k, f k)) =
      (keys.map fun k => (k, f k)) ++ [(name, .zero + elapsed)] := by
  induction keys with
  | nil => rfl
  | cons key rest ih =>
      obtain ⟨hkey, hrest⟩ := not_or.mp (List.mem_cons.not.mp hmem)
      rw [List.map_cons, addTo, if_neg (Ne.symm hkey), ih hrest]
      rfl

/-- One more visit adds its time to the entry of its name, or makes that entry. -/
theorem tally_concat (visits : List Visit) (v : Visit) :
    tally (visits ++ [v]) = addTo v.name v.seconds (tally visits) := by
  rw [tally, tally, closedNames_concat]
  by_cases h : v.name ∈ closedNames visits
  · rw [if_pos h, addTo_of_mem h (nodup_closedNames visits)]
    simp only [spent_concat]
  · rw [if_neg h, addTo_of_not_mem h, List.map_append, List.map_singleton, spent_concat,
      if_pos rfl, spent_of_not_mem h]
    congr 1
    apply List.map_congr_left
    intro name hname
    rw [spent_concat, if_neg fun heq : v.name = name => h (heq ▸ hname)]

/-- **The time in closed sections is that of the visits.** -/
theorem closed_after (history : List Call) : (after history).closed = tally (visits history) := by
  induction history with
  | nil => rfl
  | cons call earlier ih =>
      obtain ⟨now, event⟩ := call
      cases event with
      | start => exact ih
      | stop =>
          obtain ⟨total, htotal⟩ := exists_after_stop now earlier
          rw [htotal]
          exact ih
      | openSection name => exact ih
      | closeSection position =>
          have hopened : (after earlier).opened[position]? =
              (pending earlier)[position]?.map Opening.entry := by
            rw [opened_after, List.getElem?_map]
          cases hpending : (pending earlier)[position]? with
          | none =>
              rw [hpending] at hopened
              rw [visits_closeSection_of_none now hpending, after_closeSection_of_none now hopened]
              exact ih
          | some o =>
              rw [hpending] at hopened
              rw [visits_closeSection_of_some now hpending, tally_concat,
                after_closeSection_of_some now hopened, ih]
              rfl
      | result =>
          rw [after_result]
          exact ih

end RowReduction.Timer
