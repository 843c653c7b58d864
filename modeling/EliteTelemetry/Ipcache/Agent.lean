/-
  EliteTelemetry.Ipcache.Agent — the agent's copy of the IP cache
  (`pkg/exporter/nettop/ipcache.go`, and `entry2IPInfo` of `pkg/exporter/task-agent/agent.go`).

  A copy that has applied the changes up to its revision holds, under each address, what the
  controller's map holds there, as the agent sees entries (`Mirrors`). Both ways to advance a
  copy keep that: a list of the map's entries in any order (`updateIPCache_mirrors`) and the
  next change (`applyIPCacheChange_mirrors`).
-/

import EliteTelemetry.Ipcache.Service

namespace EliteTelemetry.Ipcache

inductive IPInfo where
  | node (ip nodeName : String)
  | pod (ip podName podNamespace : String)
  deriving DecidableEq, Repr

def IPInfo.ip : IPInfo → String
  | .node ip _ => ip
  | .pod ip _ _ => ip

/-- An entry without metadata is nil to the agent. -/
def entry2IPInfo (e : CacheEntry) : Option IPInfo :=
  match e.metadata with
  | .node name => some (.node e.ip name)
  | .pod podNamespace name => some (.pod e.ip name podNamespace)
  | .unset => none

theorem entry2IPInfo_ip {e : CacheEntry} {info : IPInfo} (h : entry2IPInfo e = some info) : info.ip = e.ip := by
  unfold entry2IPInfo at h
  split at h
  · cases h; rfl
  · cases h; rfl
  · cases h

structure IPCache where
  period : String
  revision : Nat
  entries : AList fun _ : String => IPInfo
  deriving DecidableEq

def emptyIPCache : IPCache := ⟨"", 0, ∅⟩

def IPCache.getIPInfo (c : IPCache) (ip : String) : Option IPInfo := c.entries.lookup ip

def updateIPCache (period : String) (revision : Nat) (infos : List IPInfo) : IPCache :=
  ⟨period, revision, infos.foldl (fun m info => m.insert info.ip info) ∅⟩

/-- `ApplyIPCacheChange`; none: it dereferences the nil info of an entry without metadata. -/
def applyIPCacheChange (c : IPCache) (cl : ChangeLog) : Option IPCache :=
  match cl.opcode, entry2IPInfo cl.entry with
  | .set, some info => some { c with revision := cl.revision, entries := c.entries.insert info.ip info }
  | .del, some info => some { c with revision := cl.revision, entries := c.entries.erase info.ip }
  | .other _, _ => some { c with revision := cl.revision }
  | _, none => none

/-! ## A copy of a map -/

/-- Under every address the copy has what the agent sees of the map's entry there. -/
def Mirrors (c : IPCache) (m : Entries) : Prop := ∀ ip, c.getIPInfo ip = (m.lookup ip).bind entry2IPInfo

def Lists (es : List CacheEntry) (m : Entries) : Prop := es.Perm (m.entries.map (·.2))

instance (es : List CacheEntry) (m : Entries) : Decidable (Lists es m) :=
  inferInstanceAs (Decidable (es.Perm (m.entries.map (·.2))))

variable {m : Entries} {es : List CacheEntry}

theorem lists_mem (hl : Lists es m) (hm : Keyed m) (e : CacheEntry) : e ∈ es ↔ m.lookup e.ip = some e := by
  rw [hl.mem_iff, List.mem_map]
  constructor
  · intro h
    obtain ⟨⟨k, v⟩, hmem, rfl⟩ := h
    have hlook : m.lookup k = some v := AList.mem_lookup_iff.mpr hmem
    rw [hm k v hlook]
    exact hlook
  · intro h
    exact ⟨⟨e.ip, e⟩, AList.mem_lookup_iff.mp h, rfl⟩

theorem lists_nodup (hl : Lists es m) (hm : Keyed m) : (es.map (·.ip)).Nodup := by
  have hkeys : (m.entries.map (·.2)).map (·.ip) = m.keys := by
    unfold AList.keys List.keys
    rw [List.map_map]
    refine List.map_congr_left ?_
    intro x hx
    exact hm x.1 x.2 (AList.mem_lookup_iff.mpr hx)
  rw [(hl.map (·.ip)).nodup_iff, hkeys]
  exact m.keys_nodup

theorem insertAll_lookup (infos : List IPInfo) (hn : (infos.map (·.ip)).Nodup) (m : AList fun _ : String => IPInfo)
    (ip : String) (info : IPInfo) :
    (infos.foldl (fun m info => m.insert info.ip info) m).lookup ip = some info ↔
      (info ∈ infos ∧ info.ip = ip) ∨ (m.lookup ip = some info ∧ ∀ x ∈ infos, x.ip ≠ ip) := by
  induction infos generalizing m with
  | nil => simp
  | cons y infos ih =>
    rw [List.map_cons, List.nodup_cons] at hn
    rw [List.foldl_cons, ih hn.2]
    by_cases hip : y.ip = ip
    · subst hip
      have hrest : ∀ x ∈ infos, x.ip ≠ y.ip := by
        intro x hx e
        exact hn.1 (List.mem_map.mpr ⟨x, hx, e⟩)
      rw [AList.lookup_insert]
      constructor
      · intro h
        rcases h with ⟨hx, e⟩ | ⟨hy, -⟩
        · exact absurd e (hrest info hx)
        · cases hy
          exact Or.inl ⟨List.mem_cons_self, rfl⟩
      · intro h
        rcases h with ⟨hx, e⟩ | ⟨-, hne⟩
        · rcases List.mem_cons.mp hx with rfl | hx
          · exact Or.inr ⟨rfl, hrest⟩
          · exact absurd e (hrest info hx)
        · exact absurd rfl (hne y List.mem_cons_self)
    · rw [AList.lookup_insert_ne (Ne.symm hip)]
      constructor
      · intro h
        rcases h with ⟨hx, e⟩ | ⟨hm, hne⟩
        · exact Or.inl ⟨List.mem_cons_of_mem _ hx, e⟩
        · refine Or.inr ⟨hm, ?_⟩
          intro x hx
          rcases List.mem_cons.mp hx with rfl | hx
          · exact hip
          · exact hne x hx
      · intro h
        rcases h with ⟨hx, e⟩ | ⟨hm, hne⟩
        · rcases List.mem_cons.mp hx with rfl | hx
          · exact absurd e hip
          · exact Or.inl ⟨hx, e⟩
        · exact Or.inr ⟨hm, fun x hx => hne x (List.mem_cons_of_mem _ hx)⟩

theorem infos_nodup (hn : (es.map (·.ip)).Nodup) : ((es.filterMap entry2IPInfo).map (·.ip)).Nodup := by
  refine List.Nodup.sublist ?_ hn
  induction es with
  | nil => exact List.Sublist.refl _
  | cons e es ih =>
    rw [List.map_cons, List.nodup_cons] at hn
    rw [List.filterMap_cons]
    cases he : entry2IPInfo e with
    | none => exact (ih hn.2).cons _
    | some info =>
      simp only [List.map_cons, entry2IPInfo_ip he]
      exact (ih hn.2).cons_cons _

theorem updateIPCache_mirrors (hl : Lists es m) (hm : Keyed m) (period : String) (revision : Nat) :
    Mirrors (updateIPCache period revision (es.filterMap entry2IPInfo)) m := by
  intro ip
  apply Option.ext
  intro info
  unfold IPCache.getIPInfo updateIPCache
  rw [insertAll_lookup _ (infos_nodup (lists_nodup hl hm)), List.mem_filterMap, Option.bind_eq_some_iff]
  constructor
  · intro h
    rcases h with ⟨⟨e, he, hinfo⟩, hip⟩ | ⟨hnone, -⟩
    · rw [entry2IPInfo_ip hinfo] at hip
      rw [lists_mem hl hm, hip] at he
      exact ⟨e, he, hinfo⟩
    · simp at hnone
  · intro h
    obtain ⟨e, he, hinfo⟩ := h
    have hip := hm ip e he
    refine Or.inl ⟨⟨e, ?_, hinfo⟩, ?_⟩
    · rw [lists_mem hl hm, hip]
      exact he
    · rw [entry2IPInfo_ip hinfo, hip]

theorem applyIPCacheChange_stamp {c c' : IPCache} {cl : ChangeLog} (hc : applyIPCacheChange c cl = some c') :
    c'.period = c.period ∧ c'.revision = cl.revision := by
  unfold applyIPCacheChange at hc
  split at hc
  · cases hc
    exact ⟨rfl, rfl⟩
  · cases hc
    exact ⟨rfl, rfl⟩
  · cases hc
    exact ⟨rfl, rfl⟩
  · cases hc

theorem Mirrors.update {c c' : IPCache} {m' : Entries} (h : Mirrors c m) {ip : String}
    (hself : c'.entries.lookup ip = (m'.lookup ip).bind entry2IPInfo)
    (hcopy : ∀ a, a ≠ ip → c'.entries.lookup a = c.entries.lookup a) (hmap : ∀ a, a ≠ ip → m'.lookup a = m.lookup a) :
    Mirrors c' m' := by
  intro a
  by_cases ha : a = ip
  · subst ha
    exact hself
  · rw [hmap a ha]
    exact (hcopy a ha).trans (h a)

theorem applyIPCacheChange_mirrors {c c' : IPCache} {cl : ChangeLog} (h : Mirrors c m)
    (hc : applyIPCacheChange c cl = some c') : Mirrors c' (apply m cl) := by
  unfold applyIPCacheChange at hc
  unfold apply
  cases hop : cl.opcode with
  | other code =>
    simp only [hop] at hc
    cases hc
    exact h
  | set =>
    cases hinfo : entry2IPInfo cl.entry with
    | none => simp [hop, hinfo] at hc
    | some info =>
      simp only [hop, hinfo] at hc
      cases hc
      have hip := entry2IPInfo_ip hinfo
      refine h.update ?_ (fun a ha => AList.lookup_insert_ne (hip ▸ ha)) (fun a ha => AList.lookup_insert_ne ha)
      rw [← hip, AList.lookup_insert, hip, AList.lookup_insert]
      exact hinfo.symm
  | del =>
    cases hinfo : entry2IPInfo cl.entry with
    | none => simp [hop, hinfo] at hc
    | some info =>
      simp only [hop, hinfo] at hc
      cases hc
      have hip := entry2IPInfo_ip hinfo
      refine h.update ?_ (fun a ha => AList.lookup_erase_ne (hip ▸ ha)) (fun a ha => AList.lookup_erase_ne ha)
      rw [← hip, AList.lookup_erase, hip, AList.lookup_erase]
      rfl

end EliteTelemetry.Ipcache
