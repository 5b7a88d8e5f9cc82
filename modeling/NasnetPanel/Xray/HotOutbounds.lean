import NasnetPanel.Xray.HotUsers

/-!
# Xray.HotOutbounds — the outbounds, hot applied

Outbounds of tiers come and go, the others stay as they are, the default first of all. When the new
ones are added, as they are read, and the old ones are retired, each tag has the outbound of the
next config just where those that stay are the same as written and reading does nothing to those
that are new (`Swaps.handlers_iff`).
-/

namespace NasnetPanel.Xray.HotApply
open List Keyed
open Json (Fields field object list text set without unionKeys Exact mapFields)

variable {N : Type}

/-! ## Outbounds -/

section Outbounds

theorem tag_ne_empty {tag : String} (tier : isTierTag tag = true) : tag ≠ "" := by
  rintro rfl
  exact absurd tier (by decide)

section Apart

variable {A : Type} {key : A → String} {l : List A} {k : String} {a : A}

theorem Apart.find_iff (apart : Apart (l.map key)) (named : k ≠ "") :
    Keyed.find key l k = some a ↔ a ∈ l ∧ key a = k := by
  have distinct : ((l.filter fun a => key a ≠ "").map key).Nodup := by
    have names : (l.filter fun a => key a ≠ "").map key = (l.map key).filter (· ≠ "") := by
      rw [filter_map]
      rfl
    rw [names]
    exact apart
  have found : find key (l.filter fun a => key a ≠ "") k =
      if decide (k ≠ "") = true then find key l k else none :=
    find_filter (fun name => name ≠ "") k
  rw [if_pos (decide_eq_true named)] at found
  rw [← found, find_eq_some_iff distinct, mem_filter]
  constructor
  · rintro ⟨⟨mem, -⟩, same⟩
    exact ⟨mem, same⟩
  · rintro ⟨mem, rfl⟩
    exact ⟨⟨mem, decide_eq_true named⟩, rfl⟩

end Apart

variable {w : State N}

theorem ado_spec {outs : List (Fields N)} (named : ∀ out ∈ outs, tagOf out ≠ "")
    (apart : (outs.map tagOf).Nodup) (new : ∀ out ∈ outs, tagOf out ∉ w.outbounds.map tagOf) :
    (ado outs w).ended = .ok { w with outbounds := w.outbounds ++ outs } ∧
      ∀ v ∈ (ado outs w).seen, v.inbounds = w.inbounds := by
  induction outs generalizing w with
  | nil => exact ⟨by rw [append_nil]; rfl, fun v mem => absurd mem not_mem_nil⟩
  | cons out outs ih =>
    rw [map_cons, nodup_cons] at apart
    have first : w.addOutbound out = some { w with outbounds := w.outbounds ++ [out] } := by
      unfold State.addOutbound
      have absent : (w.outbounds.map tagOf).contains (tagOf out) = false := by
        simpa using new out mem_cons_self
      rw [absent, Bool.and_false, if_neg Bool.false_ne_true]
    obtain ⟨ended, states⟩ := ih (w := { w with outbounds := w.outbounds ++ [out] })
      (fun o mem => named o (mem_cons_of_mem _ mem)) apart.2 (by
        intro o mem there
        rw [map_append, mem_append] at there
        rcases there with there | there
        · exact new o (mem_cons_of_mem _ mem) there
        refine apart.1 ?_
        rw [← mem_singleton.mp there]
        exact mem_map_of_mem mem)
    unfold ado
    rw [first]
    rw [append_assoc] at ended
    exact ⟨ended, forall_mem_cons.mpr ⟨rfl, states⟩⟩

/-- Outbounds with the tags are removed. -/
theorem retire_spec {tags : List String} (named : ∀ tag ∈ tags, tag ≠ "") :
    (retire tags w).ended = .ok { w with
        outbounds := w.outbounds.filter fun out => tagOf out ∉ tags
        default := w.default.filter fun out => tagOf out ∉ tags } ∧
      ∀ v ∈ (retire tags w).seen, v.inbounds = w.inbounds := by
  induction tags generalizing w with
  | nil =>
    have all (o : Option (Fields N)) : (o.filter fun _ => true) = o := by cases o <;> rfl
    refine ⟨?_, fun v mem => absurd mem not_mem_nil⟩
    simp only [not_mem_nil, not_false_eq_true, decide_true, filter_true, all]
    rfl
  | cons tag tags ih =>
    have first : w.removeOutbound tag = some { w with
        outbounds := w.outbounds.filter fun out => tagOf out ≠ tag
        default := w.default.filter fun out => tagOf out ≠ tag } := by
      rw [State.removeOutbound, if_neg (named tag mem_cons_self)]
    have both (out : Fields N) : (decide (tagOf out ∉ tags) && decide (tagOf out ≠ tag)) =
        decide (tagOf out ∉ tag :: tags) := by
      by_cases here : tagOf out = tag
      · simp [here]
      · by_cases there : tagOf out ∈ tags <;> simp [here, there]
    have option (o : Option (Fields N)) : (o.filter fun out => tagOf out ≠ tag).filter
        (fun out => tagOf out ∉ tags) = o.filter fun out => tagOf out ∉ tag :: tags := by
      cases o with
      | none => rfl
      | some out =>
        by_cases here : tagOf out = tag
        · simp [Option.filter_some, here]
        · by_cases there : tagOf out ∈ tags <;> simp [Option.filter_some, here, there]
    obtain ⟨ended, states⟩ := ih (w := { w with
        outbounds := w.outbounds.filter fun out => tagOf out ≠ tag
        default := w.default.filter fun out => tagOf out ≠ tag })
      fun t mem => named t (mem_cons_of_mem _ mem)
    unfold retire
    rw [first]
    rw [filter_filter, option] at ended
    simp only [both] at ended
    exact ⟨ended, forall_mem_cons.mpr ⟨rfl, states⟩⟩

section Plan

variable [DecidableEq N] {seen : N → N}
  {retired : List String} {nxt : List (Json N)} {added : List (Fields N)}

omit [DecidableEq N] in
/-- Tags that are not wanted any more are retired, tier tags all of them. -/
theorem planRetired_spec {after : List (String × Json N)} {tags : List String}
    (planned : planRetired after tags = .ok retired) :
    (∀ tag, tag ∈ retired ↔ tag ∈ tags ∧ lookup after tag = none) ∧
      ∀ tag ∈ retired, isTierTag tag = true := by
  induction tags generalizing retired with
  | nil =>
    cases planned
    exact ⟨fun tag => by simp, fun tag mem => absurd mem not_mem_nil⟩
  | cons tag tags ih =>
    unfold planRetired at planned
    split at planned
    next kept =>
      obtain ⟨mems, tier⟩ := ih planned
      refine ⟨fun t => ?_, tier⟩
      rw [mems, mem_cons, or_and_right, or_iff_right]
      rintro ⟨rfl, none⟩
      rw [none] at kept
      cases kept
    next gone =>
      split at planned
      next here =>
        obtain ⟨more, rest, rfl⟩ := of_map_eq_ok planned
        obtain ⟨mems, tier⟩ := ih rest
        have none : lookup after tag = none := by simpa using gone
        refine ⟨fun t => ?_, forall_mem_cons.mpr ⟨here, tier⟩⟩
        rw [mem_cons, mem_cons, mems, or_and_right]
        exact or_congr_left ⟨fun same => ⟨same, same ▸ none⟩, And.left⟩
      · cases planned

/-- Outbounds with a new tag are added, and their tags are tier tags. -/
theorem planAdded_spec {before : List (String × Json N)}
    (planned : planAdded seen before nxt = .ok added) :
    added = (nxt.filter fun out => (lookup before (tagOf (object out))).isNone).map object ∧
      ∀ out ∈ added, isTierTag (tagOf out) = true := by
  induction nxt generalizing added with
  | nil =>
    cases planned
    exact ⟨rfl, fun out mem => absurd mem not_mem_nil⟩
  | cons out rest ih =>
    unfold planAdded at planned
    cases found : lookup before (tagOf (object out)) with
    | some old =>
      rw [found] at planned
      dsimp only at planned
      split at planned
      · rw [filter_cons_of_neg (by simp [found])]
        exact ih planned
      · cases planned
    | none =>
      rw [found] at planned
      dsimp only at planned
      split at planned
      next here =>
        obtain ⟨more, added, rfl⟩ := of_map_eq_ok planned
        obtain ⟨rfl, tier⟩ := ih added
        refine ⟨?_, forall_mem_cons.mpr ⟨here, tier⟩⟩
        rw [filter_cons_of_pos (by simp [found]), map_cons]
      · cases planned

/-- What the plan has for the outbounds: to add those of new tags, and to retire the tags that are
gone. -/
structure Swaps (cur nxt added : List (Fields N)) (retired : List String) : Prop where
  head : cur.head?.map tagOf = nxt.head?.map tagOf
  adds : added = nxt.filter fun out => tagOf out ∉ cur.map tagOf
  named : ∀ out ∈ added, tagOf out ≠ ""
  retires : ∀ tag, tag ∈ retired ↔ tag ∈ cur.map tagOf ∧ tag ∉ nxt.map tagOf
  retirable : ∀ tag ∈ retired, tag ≠ ""

namespace Swaps

variable {cur nxt added : List (Fields N)} (h : Swaps cur nxt added retired)
include h

omit [DecidableEq N] in
theorem apart (apart' : Apart (nxt.map tagOf)) : (added.map tagOf).Nodup := by
  have names : (added.map tagOf).filter (· ≠ "") = added.map tagOf :=
    filter_eq_self.mpr (forall_mem_map.mpr fun out there => decide_eq_true (h.named out there))
  rw [← names, h.adds]
  exact apart'.sublist ((filter_sublist.map _).filter _)

omit [DecidableEq N] in
theorem new : ∀ out ∈ added, tagOf out ∉ cur.map tagOf := by
  intro out mem
  rw [h.adds] at mem
  exact of_decide_eq_true (mem_filter.mp mem).2

omit [DecidableEq N] in
theorem default_stays : (cur.head?.filter fun out => tagOf out ∉ retired) = cur.head? := by
  have head := h.head
  cases first : cur.head? with
  | none => rfl
  | some out =>
    rw [first] at head
    obtain ⟨next, there, same⟩ := Option.map_eq_some_iff.mp head.symm
    have mem : tagOf out ∈ nxt.map tagOf := same ▸ mem_map_of_mem (mem_of_mem_head? there)
    have stays : tagOf out ∉ retired := fun gone => ((h.retires _).mp gone).2 mem
    rw [Option.filter_some, if_pos (decide_eq_true stays)]

omit [DecidableEq N] in
/-- The outbound of a tag of the next config, in the end: the one that was there, or the new one as
it was read. -/
theorem find_swapped {n : Fields N} (apart' : Apart (nxt.map tagOf)) (mem : n ∈ nxt)
    (seen : N → N) :
    Keyed.find tagOf ((cur ++ added.map (mapFields seen)).filter fun out => tagOf out ∉ retired)
      (tagOf n) =
      if tagOf n ∈ cur.map tagOf then Keyed.find tagOf cur (tagOf n)
      else some (mapFields seen n) := by
  have stays : tagOf n ∉ retired := fun gone => ((h.retires _).mp gone).2 (mem_map_of_mem mem)
  have kept : find tagOf ((cur ++ added.map (mapFields seen)).filter fun out =>
      tagOf out ∉ retired) (tagOf n) =
      if decide (tagOf n ∉ retired) = true then
        find tagOf (cur ++ added.map (mapFields seen)) (tagOf n) else none :=
    find_filter (fun tag => tag ∉ retired) _
  rw [kept, if_pos (decide_eq_true stays), find_append]
  split
  next known =>
    obtain ⟨o, there, same⟩ := mem_map.mp known
    cases found : find tagOf cur (tagOf n) with
    | none => exact absurd same (find_eq_none_iff.mp found o there)
    | some _ => rfl
  next unknown =>
    have none : find tagOf cur (tagOf n) = none := by
      refine find_eq_none_iff.mpr fun o there same => unknown ?_
      exact same ▸ mem_map_of_mem there
    have read : ((added.map (mapFields seen)).map tagOf).Nodup := by
      simpa only [map_map, Function.comp_def, tagOf_mapFields] using h.apart apart'
    rw [none, Option.none_or, find_eq_some_iff read, tagOf_mapFields]
    refine ⟨mem_map_of_mem ?_, rfl⟩
    rw [h.adds]
    exact mem_filter.mpr ⟨mem, decide_eq_true unknown⟩

omit [DecidableEq N] in
/-- **Each tag has the outbound of the next config just where those that stay are the same as
written and reading does nothing to the new ones.** -/
theorem handlers_iff (apart : Apart (cur.map tagOf)) (apart' : Apart (nxt.map tagOf))
    (seen : N → N) :
    (∀ tag, tag ≠ "" →
      Keyed.find tagOf ((cur ++ added.map (mapFields seen)).filter fun out => tagOf out ∉ retired)
        tag = Keyed.find tagOf nxt tag) ↔
    ∀ out ∈ nxt, tagOf out ≠ "" →
      (tagOf out ∈ cur.map tagOf → out ∈ cur) ∧
        (tagOf out ∉ cur.map tagOf → Exact seen (.obj out)) := by
  constructor
  · intro same n mem named
    have found := same (tagOf n) named
    rw [h.find_swapped apart' mem, (apart'.find_iff named).mpr ⟨mem, rfl⟩] at found
    refine ⟨fun known => ?_, fun unknown => ?_⟩
    · rw [if_pos known] at found
      exact (of_find found).1
    · rw [if_neg unknown] at found
      exact congrArg Json.obj (Option.some.inj found)
  · intro written tag named
    by_cases next : tag ∈ nxt.map tagOf
    · obtain ⟨n, mem, rfl⟩ := mem_map.mp next
      rw [h.find_swapped apart' mem, (apart'.find_iff named).mpr ⟨mem, rfl⟩]
      obtain ⟨stays, exact⟩ := written n mem named
      split
      next known => exact (apart.find_iff named).mpr ⟨stays known, rfl⟩
      next unknown => rw [Json.obj.inj (exact unknown)]
    · have gone : find tagOf nxt tag = none :=
        find_eq_none_iff.mpr fun o there same => next (same ▸ mem_map_of_mem there)
      rw [gone, find_eq_none_iff]
      rintro o mem rfl
      obtain ⟨mem, stays⟩ := mem_filter.mp mem
      rcases mem_append.mp mem with mem | mem
      · exact of_decide_eq_true stays ((h.retires _).mpr ⟨mem_map_of_mem mem, next⟩)
      · obtain ⟨d, added, rfl⟩ := mem_map.mp mem
        rw [h.adds] at added
        rw [tagOf_mapFields] at next
        exact next (mem_map_of_mem (mem_filter.mp added).1)

end Swaps

omit [DecidableEq N] in
theorem lookup_none_iff {l : List (Json N)} {tag : String} :
    lookup (l.map fun out => (tagOf (object out), out)) tag = none ↔
      tag ∉ (l.map object).map tagOf := by
  rw [lookup_map, find_eq_none_iff, map_map]
  simp

/-- What a plan adds and retires makes the old tags the new ones. -/
theorem planOutbounds_swaps {cur : List (Json N)}
    (planned : planOutbounds seen cur nxt = .ok (added, retired)) :
    Swaps (cur.map object) (nxt.map object) added retired := by
  unfold planOutbounds at planned
  split at planned
  next first curs first' nxts =>
    split at planned
    · cases planned
    next default =>
    rw [Bool.not_eq_true', Bool.not_eq_false] at default
    obtain ⟨retired', gone, planned⟩ := of_bind_eq_ok planned
    obtain ⟨added', adds, ⟨⟩⟩ := of_map_eq_ok planned
    obtain ⟨retires, tier⟩ := planRetired_spec gone
    obtain ⟨rfl, tier'⟩ := planAdded_spec adds
    refine ⟨?_, ?_, fun o mem => tag_ne_empty (tier' o mem), fun tag => ?_,
      fun tag mem => tag_ne_empty (tier tag mem)⟩
    · rw [same, Json.deepEqual_iff] at default
      show some (tagOf (object first)) = some (tagOf (object first'))
      rw [← tagOf_mapFields seen, ← Json.object_map, default, Json.object_map, tagOf_mapFields]
    · rw [filter_map]
      congr 1
      refine filter_congr fun out _ => ?_
      rw [Bool.eq_iff_iff, Option.isNone_iff_eq_none, lookup_none_iff]
      exact decide_eq_true_iff.symm
    · rw [retires, mem_dedup, lookup_none_iff]
      simp only [map_map]
      exact Iff.rfl
  · cases planned

end Plan

end Outbounds

end NasnetPanel.Xray.HotApply
