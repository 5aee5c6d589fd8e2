import MultiAgentTrading.Lib.Dict

/-!
# Files written one after the other, and crashes

A directory is a dictionary from names to contents, and a job is a list of files that are written whole, one after the
other (`writeAll`).  A crash stops it between two files or inside one, of which only the beginning is then there;
`cut` is what has been written up to a crash point.  A name the job does not write keeps its contents, and a name that
is written, with distinct names, holds what `cut` has for it.
-/

namespace Writes

variable {α β : Type*} [DecidableEq α]

/-- Where a job stops: with the first `k` files written, or with `n` items of the file after them written as well. -/
inductive CrashPoint
  | between (k : ℕ)
  | during (k n : ℕ)
  deriving DecidableEq

def writeAll (d : Dict α (List β)) (files : List (α × List β)) : Dict α (List β) :=
  files.foldl (fun d f => d.set f.1 f.2) d

omit [DecidableEq α] in
/-- What has been written up to a crash point. -/
def cut (files : List (α × List β)) : CrashPoint → List (α × List β)
  | .between k => files.take k
  | .during k n => files.take k ++ (files[k]?.map fun f => (f.1, f.2.take n)).toList

def crashed (d : Dict α (List β)) (files : List (α × List β)) (p : CrashPoint) : Dict α (List β) :=
  writeAll d (cut files p)

/-- A name that is not written keeps its contents. -/
theorem get?_writeAll_of_not_mem {d : Dict α (List β)} {files : List (α × List β)} {name : α}
    (h : name ∉ files.map Prod.fst) : (writeAll d files).get? name = d.get? name := by
  induction files generalizing d with
  | nil => rfl
  | cons f files ih =>
    rw [List.map_cons, List.mem_cons, not_or] at h
    show (writeAll (d.set f.1 f.2) files).get? name = _
    rw [ih h.2, Dict.get?_set_of_ne h.1]

/-- A file that is written is there with its contents. -/
theorem get?_writeAll_of_mem {d : Dict α (List β)} {files : List (α × List β)} (hnodup : (files.map Prod.fst).Nodup)
    {f : α × List β} (h : f ∈ files) : (writeAll d files).get? f.1 = some f.2 := by
  induction files generalizing d with
  | nil => cases h
  | cons g files ih =>
    rw [List.map_cons, List.nodup_cons] at hnodup
    show (writeAll (d.set g.1 g.2) files).get? f.1 = _
    rcases List.mem_cons.1 h with rfl | hf
    · rw [get?_writeAll_of_not_mem hnodup.1, Dict.get?_set_self]
    · exact ih hnodup.2 hf

theorem mem_keys_writeAll {d : Dict α (List β)} {files : List (α × List β)} {name : α} :
    name ∈ (writeAll d files).keys ↔ name ∈ files.map Prod.fst ∨ name ∈ d.keys := by
  induction files generalizing d with
  | nil => simp [writeAll]
  | cons f files ih =>
    show name ∈ (writeAll (d.set f.1 f.2) files).keys ↔ _
    rw [ih, Dict.mem_keys_set, List.map_cons, List.mem_cons]
    tauto

omit [DecidableEq α] in
private theorem map_fst_cut_during (files : List (α × List β)) (k n : ℕ) :
    (cut files (.during k n)).map Prod.fst = (files.take (k + 1)).map Prod.fst := by
  rw [cut, List.take_add_one, List.map_append, List.map_append]
  cases files[k]? with
  | none => rfl
  | some f => rfl

omit [DecidableEq α] in
/-- Files are begun in the order of the job. -/
theorem begun_in_order (files : List (α × List β)) (p : CrashPoint) :
    (cut files p).map Prod.fst <+: files.map Prod.fst := by
  have hbegin : ∀ k, (files.take k).map Prod.fst <+: files.map Prod.fst := fun k =>
    List.IsPrefix.map Prod.fst <| List.take_prefix k files
  cases p with
  | between k => exact hbegin k
  | during k n =>
    rw [map_fst_cut_during]
    exact hbegin (k + 1)

omit [DecidableEq α] in
theorem nodup_cut {files : List (α × List β)} (h : (files.map Prod.fst).Nodup) (p : CrashPoint) :
    ((cut files p).map Prod.fst).Nodup :=
  h.sublist (begun_in_order files p).sublist

omit [DecidableEq α] in
/-- Every file that has been begun holds a beginning of its contents. -/
theorem exists_of_mem_cut {files : List (α × List β)} {p : CrashPoint} {f : α × List β} (h : f ∈ cut files p) :
    ∃ g ∈ files, f.1 = g.1 ∧ f.2 <+: g.2 := by
  cases p with
  | between k => exact ⟨f, List.mem_of_mem_take h, rfl, List.prefix_refl _⟩
  | during k n =>
    rcases List.mem_append.1 h with hwhole | hpart
    · exact ⟨f, List.mem_of_mem_take hwhole, rfl, List.prefix_refl _⟩
    · obtain ⟨g, hg, rfl⟩ := Option.map_eq_some_iff.1 (Option.mem_toList.1 hpart)
      exact ⟨g, List.mem_of_getElem? hg, rfl, List.take_prefix n g.2⟩

omit [DecidableEq α] in
/-- If anything has been written, the first file has been begun. -/
theorem first_mem_cut {f : α × List β} {files : List (α × List β)} {p : CrashPoint} (h : cut (f :: files) p ≠ []) :
    f.1 ∈ (cut (f :: files) p).map Prod.fst := by
  have hbegun := begun_in_order (f :: files) p
  cases hcut : cut (f :: files) p with
  | nil => exact absurd hcut h
  | cons g rest =>
    rw [hcut, List.map_cons, List.map_cons] at hbegun
    rw [List.map_cons, (List.cons_prefix_cons.1 hbegun).1]
    exact List.mem_cons_self

omit [DecidableEq α] in
/-- Once the last file has been begun, all files before it are complete. -/
theorem subset_cut_of_last_mem {files : List (α × List β)} {f : α × List β} {p : CrashPoint}
    (hnew : f.1 ∉ files.map Prod.fst) (h : f.1 ∈ (cut (files ++ [f]) p).map Prod.fst) :
    files ⊆ cut (files ++ [f]) p := by
  have hwhole : ∀ k, files.length ≤ k → files ⊆ (files ++ [f]).take k := fun k hk g hg => by
    rw [List.take_append]
    exact List.mem_append_left _ (by rwa [List.take_of_length_le hk])
  have hbegun : ∀ k, k ≤ files.length → f.1 ∉ ((files ++ [f]).take k).map Prod.fst := fun k hk hmem => by
    rw [List.take_append_of_le_length hk] at hmem
    exact hnew (List.map_subset _ (List.take_subset k files) hmem)
  cases p with
  | between k =>
    by_cases hk : files.length ≤ k
    · exact hwhole k hk
    · exact absurd h (hbegun k (by omega))
  | during k n =>
    by_cases hk : files.length ≤ k
    · exact fun g hg => List.mem_append_left _ (hwhole k hk hg)
    · rw [map_fst_cut_during] at h
      exact absurd h (hbegun (k + 1) (by omega))

/-- A file that was not there before is complete after the crash if it was written whole. -/
theorem get?_crashed_iff {d : Dict α (List β)} {files : List (α × List β)} (hnodup : (files.map Prod.fst).Nodup)
    {f : α × List β} (hnew : f.1 ∉ d.keys) (p : CrashPoint) :
    (crashed d files p).get? f.1 = some f.2 ↔ f ∈ cut files p := by
  refine ⟨fun h => ?_, get?_writeAll_of_mem (nodup_cut hnodup p)⟩
  by_cases hmem : f.1 ∈ (cut files p).map Prod.fst
  · obtain ⟨g, hg, hname⟩ := List.mem_map.1 hmem
    have hget : (crashed d files p).get? g.1 = some g.2 := get?_writeAll_of_mem (nodup_cut hnodup p) hg
    rw [hname, h] at hget
    rwa [Prod.ext hname.symm (Option.some.inj hget)]
  · rw [crashed, get?_writeAll_of_not_mem hmem, Dict.get?_eq_none_iff.2 hnew] at h
    cases h

end Writes
