import Brunomnia.Collaboration.Snapshot

/-!
# Clearing and restoring credentials

Runtime credentials are cleared on the way out of a workspace and restored on
the way in. Clearing after restoring undoes it, so a resource that was cleared
once comes out of the workspace as it came in; restoring after clearing gives a
resource back exactly when its own credentials are the ones found under its key.
-/

namespace Brunomnia.Collaboration

open Json

/-! ## Picked members -/

theorem pick_keys_sublist (value : Json) (keys : List String) :
    ((pick value keys).map Prod.fst).Sublist keys := by
  induction keys with
  | nil => exact List.Sublist.refl _
  | cons key rest ih =>
      unfold pick at ih ⊢
      cases found : value.get? key with
      | none => simpa [found] using ih.cons key
      | some content => simpa [found] using ih.cons_cons key

theorem mem_pick {value : Json} {keys : List String} {update : String × Json} :
    update ∈ pick value keys ↔ update.1 ∈ keys ∧ value.get? update.1 = some update.2 := by
  unfold pick
  rw [List.mem_filterMap]
  constructor
  · rintro ⟨key, keyMem, picked⟩
    rcases Option.map_eq_some_iff.mp picked with ⟨content, found, rfl⟩
    exact ⟨keyMem, found⟩
  · rintro ⟨keyMem, found⟩
    exact ⟨update.1, keyMem, by rw [found]; rfl⟩

theorem pick_keys_of_present {value : Json} {keys : List String}
    (present : ∀ key ∈ keys, (value.get? key).isSome) :
    (pick value keys).map Prod.fst = keys := by
  induction keys with
  | nil => rfl
  | cons key rest ih =>
      rcases Option.isSome_iff_exists.mp (present key List.mem_cons_self) with ⟨content, found⟩
      have tail := ih fun other otherMem => present other (List.mem_cons_of_mem _ otherMem)
      unfold pick at tail ⊢
      simp [found, tail]

theorem pick_congr {value other : Json} {keys : List String}
    (same : ∀ key ∈ keys, value.get? key = other.get? key) : pick value keys = pick other keys := by
  unfold pick
  apply List.filterMap_congr
  intro key keyMem
  rw [same key keyMem]

/-- Picks of members that are all there agree only when the members do. -/
theorem get?_eq_of_pick_eq {value other : Json} {keys : List String}
    (present : ∀ key ∈ keys, (value.get? key).isSome) (same : pick value keys = pick other keys)
    {key : String} (keyMem : key ∈ keys) : other.get? key = value.get? key := by
  rcases Option.isSome_iff_exists.mp (present key keyMem) with ⟨content, found⟩
  have picked : (key, content) ∈ pick value keys := mem_pick.mpr ⟨keyMem, found⟩
  rw [same] at picked
  rw [found]
  exact (mem_pick.mp picked).2

/-! ## Spreads -/

theorem obj_members {value : Json} (object : value.isObject) : .obj value.members = value := by
  cases value with
  | obj members => rfl
  | null | bool | num | str | arr => simp [isObject] at object

theorem spread_eq_self_iff {value : Json} {updates : List (String × Json)}
    (object : value.isObject) (nodup : (updates.map Prod.fst).Nodup) :
    value.spread updates = value ↔ ∀ update ∈ updates, value.get? update.1 = some update.2 := by
  constructor
  · intro same update updateMem
    rw [← same]
    exact get?_spread nodup updateMem
  · intro found
    rw [spread, assignAll_of_lookup found]
    exact obj_members object

theorem spread_spread {value : Json} {earlier updates : List (String × Json)}
    (nodup : (earlier.map Prod.fst).Nodup)
    (present : ∀ update ∈ updates, (value.get? update.1).isSome)
    (overwritten : ∀ update ∈ earlier,
      update.1 ∈ updates.map Prod.fst ∨ value.get? update.1 = some update.2) :
    (value.spread earlier).spread updates = value.spread updates := by
  rw [spread, members_spread, spread]
  congr 1
  apply assignAll_absorb nodup _ overwritten
  exact fun update updateMem => hasKey_iff_lookup.mpr (present update updateMem)

theorem isSome_get?_spread {value : Json} {updates : List (String × Json)} {key : String}
    (present : (value.get? key).isSome ∨ key ∈ updates.map Prod.fst) :
    ((value.spread updates).get? key).isSome := by
  apply hasKey_iff_lookup.mp
  rw [members_spread]
  rcases present with found | updated
  · exact hasKey_assignAll (hasKey_iff_lookup.mpr found)
  · exact hasKey_assignAll_of_mem updated

/-! ## Authentication -/

def runtimeKeys : List String :=
  ["code", "codeVerifier", "accessToken", "identityToken", "refreshToken", "expiresAt"]

theorem clearedAuthFields_keys : clearedAuthFields.map Prod.fst = runtimeKeys := rfl

theorem type_not_mem_runtimeKeys : "type" ∉ runtimeKeys := by decide

theorem clearOAuthRuntime_type (auth : Json) :
    (clearOAuthRuntime auth).text "type" = auth.text "type" := by
  unfold clearOAuthRuntime
  split
  · exact text_congr (get?_spread_of_not_mem type_not_mem_runtimeKeys)
  · rfl

theorem clearOAuthRuntime_truthy {auth : Json} (truthy : auth.truthy) :
    (clearOAuthRuntime auth).truthy := by
  unfold clearOAuthRuntime
  split
  · rfl
  · exact truthy

theorem mergeAuth_truthy {entries : List (String × Json)} {key : String} {auth : Json}
    (truthy : auth.truthy) : (mergeAuth entries key auth).truthy := by
  unfold mergeAuth
  split
  · split
    · rfl
    · exact truthy
  · exact truthy

theorem clearOAuthRuntime_spread {auth : Json} {updates : List (String × Json)}
    (oauth : auth.text "type" = "oauth2") (nodup : (updates.map Prod.fst).Nodup)
    (runtime : ∀ update ∈ updates, update.1 ∈ runtimeKeys)
    (present : ∀ key ∈ runtimeKeys, (auth.get? key).isSome) :
    clearOAuthRuntime (auth.spread updates) = clearOAuthRuntime auth := by
  have typeKept : (auth.spread updates).text "type" = "oauth2" := by
    rw [← oauth]
    apply text_congr
    apply get?_spread_of_not_mem
    intro typeMem
    rcases List.mem_map.mp typeMem with ⟨update, updateMem, typeEq⟩
    exact type_not_mem_runtimeKeys (typeEq ▸ runtime update updateMem)
  rw [clearOAuthRuntime, if_pos typeKept, clearOAuthRuntime, if_pos oauth]
  apply spread_spread nodup
  · intro update updateMem
    exact present update.1 (clearedAuthFields_keys ▸ List.mem_map_of_mem updateMem)
  · intro update updateMem
    rw [clearedAuthFields_keys]
    exact Or.inl (runtime update updateMem)

theorem clearOAuthRuntime_present {auth : Json} (oauth : auth.text "type" = "oauth2") :
    ∀ key ∈ runtimeKeys, ((clearOAuthRuntime auth).get? key).isSome := by
  intro key keyMem
  rw [clearOAuthRuntime, if_pos oauth]
  exact isSome_get?_spread (Or.inr keyMem)

@[simp]
theorem clearOAuthRuntime_clearOAuthRuntime (auth : Json) :
    clearOAuthRuntime (clearOAuthRuntime auth) = clearOAuthRuntime auth := by
  by_cases oauth : auth.text "type" = "oauth2"
  · have cleared : (clearOAuthRuntime auth).text "type" = "oauth2" := by
      rw [clearOAuthRuntime_type, oauth]
    rw [clearOAuthRuntime, if_pos cleared]
    apply (spread_eq_self_iff _ (by decide)).mpr
    · intro update updateMem
      rw [clearOAuthRuntime, if_pos oauth]
      exact get?_spread (by decide) updateMem
    · rw [clearOAuthRuntime, if_pos oauth]
      rfl
  · have same : clearOAuthRuntime auth = auth := by rw [clearOAuthRuntime, if_neg oauth]
    rw [same, same]

theorem clearOAuthRuntime_mergeAuth (entries : List (String × Json)) (key : String) (auth : Json) :
    clearOAuthRuntime (mergeAuth entries key (clearOAuthRuntime auth)) =
      clearOAuthRuntime auth := by
  unfold mergeAuth
  split
  · next localValue _ =>
      split
      · next oauth =>
          have original : auth.text "type" = "oauth2" := by
            rw [← clearOAuthRuntime_type, oauth.1]
          have sublist := pick_keys_sublist localValue runtimeKeys
          change clearOAuthRuntime
            ((clearOAuthRuntime auth).spread (pick localValue runtimeKeys)) = _
          rw [clearOAuthRuntime_spread oauth.1 (sublist.nodup (by decide)) _
            (clearOAuthRuntime_present original), clearOAuthRuntime_clearOAuthRuntime]
          exact fun update updateMem => sublist.subset (List.mem_map_of_mem updateMem)
      · exact clearOAuthRuntime_clearOAuthRuntime auth
  · exact clearOAuthRuntime_clearOAuthRuntime auth

/-- The runtime credentials found under the key of a configuration are its own. -/
def CredentialKept (entries : List (String × Json)) (key : String) (auth : Json) : Prop :=
  auth.text "type" = "oauth2" →
    match (lastValue entries key).filter fun found => found.text "type" = "oauth2" with
    | some localValue => runtimeFields localValue = runtimeFields auth
    | none => runtimeFields auth = clearedAuthFields

theorem mergeAuth_clearOAuthRuntime_iff {entries : List (String × Json)} {key : String}
    {auth : Json} (object : auth.isObject)
    (present : auth.text "type" = "oauth2" → ∀ key ∈ runtimeKeys, (auth.get? key).isSome)
    (localPresent : ∀ found, lastValue entries key = some found →
      found.text "type" = "oauth2" → ∀ key ∈ runtimeKeys, (found.get? key).isSome) :
    mergeAuth entries key (clearOAuthRuntime auth) = auth ↔ CredentialKept entries key auth := by
  by_cases oauth : auth.text "type" = "oauth2"
  swap
  · have cleared : clearOAuthRuntime auth = auth := by rw [clearOAuthRuntime, if_neg oauth]
    rw [cleared]
    refine iff_of_true ?_ fun absurdOauth => absurd absurdOauth oauth
    unfold mergeAuth
    split
    · rw [if_neg fun both => oauth both.1]
    · rfl
  have clearedType : (clearOAuthRuntime auth).text "type" = "oauth2" := by
    rw [clearOAuthRuntime_type, oauth]
  have clearedEq : clearOAuthRuntime auth = auth.spread clearedAuthFields := by
    rw [clearOAuthRuntime, if_pos oauth]
  -- Without OAuth 2 credentials of the workspace the cleared ones stay.
  have cleared_iff : clearOAuthRuntime auth = auth ↔ runtimeFields auth = clearedAuthFields := by
    rw [clearedEq, spread_eq_self_iff object (by decide)]
    constructor
    · intro found
      have picked : pick auth runtimeKeys = pick (.obj clearedAuthFields) runtimeKeys := by
        apply pick_congr
        intro key keyMem
        rcases List.mem_map.mp (clearedAuthFields_keys ▸ keyMem) with ⟨update, updateMem, rfl⟩
        rw [found update updateMem]
        have unique : (clearedAuthFields.map Prod.fst).Nodup := by decide
        have read : (assignAll [] clearedAuthFields).lookup update.1 = some update.2 :=
          lookup_assignAll unique updateMem
        exact read.symm
      exact picked
    · intro fields update updateMem
      have picked : update ∈ pick auth runtimeKeys := by
        change pick auth runtimeKeys = clearedAuthFields at fields
        rw [fields]
        exact updateMem
      exact (mem_pick.mp picked).2
  unfold CredentialKept mergeAuth
  cases found : lastValue entries key with
  | none => simpa [oauth] using cleared_iff
  | some localValue =>
      by_cases localOauth : localValue.text "type" = "oauth2"
      · simp only [clearedType, localOauth, and_self, if_true, Option.filter_some, decide_true,
          oauth, true_implies]
        have localKeys := pick_keys_of_present (localPresent localValue found localOauth)
        have restored : (clearOAuthRuntime auth).spread (runtimeFields localValue) =
            auth.spread (runtimeFields localValue) := by
          rw [clearedEq]
          apply spread_spread (by decide)
          · intro update updateMem
            exact present oauth update.1 (mem_pick.mp updateMem).1
          · intro update updateMem
            refine Or.inl ?_
            change update.1 ∈ (pick localValue runtimeKeys).map Prod.fst
            rw [localKeys, ← clearedAuthFields_keys]
            exact List.mem_map_of_mem updateMem
        have nodup : ((runtimeFields localValue).map Prod.fst).Nodup :=
          (pick_keys_sublist localValue runtimeKeys).nodup (by decide)
        rw [restored, spread_eq_self_iff object nodup]
        constructor
        · intro own
          apply pick_congr
          intro key keyMem
          rcases Option.isSome_iff_exists.mp (localPresent localValue found localOauth key keyMem)
            with ⟨content, contentEq⟩
          rw [contentEq]
          exact (own (key, content) (mem_pick.mpr ⟨keyMem, contentEq⟩)).symm
        · intro same update updateMem
          rcases mem_pick.mp updateMem with ⟨keyMem, contentEq⟩
          rw [← contentEq]
          exact get?_eq_of_pick_eq (localPresent localValue found localOauth) same keyMem
      · have notFound : (some localValue).filter (fun found =>
            decide (found.text "type" = "oauth2")) = none := by
          simp [Option.filter, localOauth]
        rw [notFound]
        simpa [oauth, localOauth] using cleared_iff

/-! ## Requests and folders -/

/-- An authentication with the members that its type requires. -/
structure AuthTyped (auth : Json) : Prop where
  object : auth.isObject
  runtime : ∀ key ∈ runtimeKeys, (auth.get? key).isSome

structure RequestTyped (request : Json) : Prop where
  object : request.isObject
  auth : ∃ auth, request.get? "auth" = some auth ∧ AuthTyped auth

structure FolderTyped (folder : Json) : Prop where
  object : folder.isObject
  auth : ∀ auth, folder.get? "auth" = some auth → AuthTyped auth

theorem AuthTyped.truthy {auth : Json} (typed : AuthTyped auth) : auth.truthy := by
  have object := typed.object
  cases auth with
  | obj members => rfl
  | null | bool | num | str | arr => simp [isObject] at object

theorem without_of_absent {value : Json} {key : String} (object : value.isObject)
    (absent : value.get? key = none) : value.without key = value := by
  rw [without, List.filter_eq_self.mpr]
  · exact obj_members object
  · intro entry entryMem
    apply decide_eq_true
    rintro rfl
    have present := hasKey_iff_lookup.mp (List.mem_map_of_mem (f := Prod.fst) entryMem)
    change (value.get? entry.1).isSome at present
    simp [absent] at present

theorem get?_without {value : Json} {key other : String} (different : other ≠ key) :
    (value.without key).get? other = value.get? other := by
  change (value.members.filter _).lookup other = value.members.lookup other
  induction value.members with
  | nil => rfl
  | cons entry rest ih =>
      by_cases dropped : entry.1 = key
      · rw [List.filter_cons_of_neg (by simpa using dropped), lookup_cons_ite,
          if_neg (dropped ▸ different), ih]
      · rw [List.filter_cons_of_pos (by simpa using dropped), lookup_cons_ite, lookup_cons_ite, ih]

theorem get?_without_self (value : Json) (key : String) : (value.without key).get? key = none := by
  change (value.members.filter _).lookup key = none
  induction value.members with
  | nil => rfl
  | cons entry rest ih =>
      by_cases dropped : entry.1 = key
      · rw [List.filter_cons_of_neg (by simpa using dropped), ih]
      · rw [List.filter_cons_of_pos (by simpa using dropped), lookup_cons_ite,
          if_neg (Ne.symm dropped), ih]

theorem withRequestAuth_of_get? {request auth : Json} (found : request.get? "auth" = some auth)
    (change : Json → Json) :
    withRequestAuth change request = request.spread [("auth", change auth)] := by
  rw [withRequestAuth, found]
  rfl

theorem get?_withRequestAuth {request : Json} {key : String} (other : key ≠ "auth")
    (change : Json → Json) : (withRequestAuth change request).get? key = request.get? key := by
  unfold withRequestAuth
  apply get?_spread_of_not_mem
  cases request.get? "auth" with
  | none => simp
  | some auth => simpa using other

@[simp]
theorem withRequestAuth_id (change : Json → Json) (request : Json) :
    (withRequestAuth change request).id = request.id :=
  text_congr (get?_withRequestAuth (by decide) change)

theorem get?_withFolderAuth {folder : Json} {key : String} (other : key ≠ "auth")
    (change : Json → Json) : (withFolderAuth change folder).get? key = folder.get? key := by
  unfold withFolderAuth
  split
  · exact get?_spread_of_not_mem (by simpa using other)
  · exact get?_without other

@[simp]
theorem withFolderAuth_id (change : Json → Json) (folder : Json) :
    (withFolderAuth change folder).id = folder.id :=
  text_congr (get?_withFolderAuth (by decide) change)

theorem withRequestAuth_withRequestAuth (first second : Json → Json) (request : Json) :
    withRequestAuth second (withRequestAuth first request) =
      withRequestAuth (second ∘ first) request := by
  cases found : request.get? "auth" with
  | none =>
      have unchanged : ∀ change : Json → Json, withRequestAuth change request =
          request.spread [] := by
        intro change
        rw [withRequestAuth, found]
        rfl
      have stillAbsent : (request.spread []).get? "auth" = none := found
      rw [unchanged, unchanged, withRequestAuth, stillAbsent]
      rfl
  | some auth =>
      rw [withRequestAuth_of_get? found, withRequestAuth_of_get? found]
      have assigned : (request.spread [("auth", first auth)]).get? "auth" = some (first auth) := by
        rw [get?_spread_singleton, if_pos rfl]
      rw [withRequestAuth_of_get? assigned]
      apply spread_spread (by simp)
      · simp [found]
      · simp

theorem withFolderAuth_withFolderAuth {first : Json → Json} (second : Json → Json) (folder : Json)
    (keepsTruthy : ∀ auth, auth.truthy → (first auth).truthy) :
    withFolderAuth second (withFolderAuth first folder) =
      withFolderAuth (second ∘ first) folder := by
  cases found : (folder.get? "auth").filter truthy with
  | none =>
      have unchanged : ∀ change : Json → Json, withFolderAuth change folder =
          folder.without "auth" := by
        intro change
        rw [withFolderAuth, found]
      rw [unchanged, unchanged, withFolderAuth, get?_without_self]
      exact without_of_absent rfl (get?_without_self folder "auth")
  | some auth =>
      rcases Option.filter_eq_some_iff.mp found with ⟨authFound, authTruthy⟩
      have changed : ∀ change : Json → Json, withFolderAuth change folder =
          folder.spread [("auth", change auth)] := by
        intro change
        rw [withFolderAuth, found]
      have assigned : ((folder.spread [("auth", first auth)]).get? "auth").filter truthy =
          some (first auth) := by
        rw [get?_spread_singleton, if_pos rfl, Option.filter_eq_some_iff]
        exact ⟨rfl, keepsTruthy auth authTruthy⟩
      rw [changed, changed, withFolderAuth, assigned]
      apply spread_spread (by simp)
      · simp [authFound]
      · simp

theorem withRequestAuth_eq_self_iff {request auth : Json} (object : request.isObject)
    (found : request.get? "auth" = some auth) (change : Json → Json) :
    withRequestAuth change request = request ↔ change auth = auth := by
  rw [withRequestAuth_of_get? found, spread_eq_self_iff object (by simp)]
  simp [found, eq_comm]

theorem withFolderAuth_eq_self_iff {folder : Json} (typed : FolderTyped folder)
    (change : Json → Json) :
    withFolderAuth change folder = folder ↔
      ∀ auth, folder.get? "auth" = some auth → change auth = auth := by
  cases found : folder.get? "auth" with
  | none =>
      have unchanged : withFolderAuth change folder = folder := by
        rw [withFolderAuth, found]
        exact without_of_absent typed.object found
      simp [unchanged]
  | some auth =>
      have authTruthy : (some auth).filter truthy = some auth := by
        rw [Option.filter_eq_some_iff]
        exact ⟨rfl, (typed.auth auth found).truthy⟩
      rw [withFolderAuth, found, authTruthy]
      dsimp only
      rw [spread_eq_self_iff typed.object (by simp)]
      simp [found, eq_comm]

end Brunomnia.Collaboration
