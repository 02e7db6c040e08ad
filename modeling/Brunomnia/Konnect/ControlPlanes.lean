import Brunomnia.Json
import Brunomnia.Strings

/-!
# Konnect control planes

What the remote API lists for a region, the settings that a project keeps about the control plane
it stands for, and how the settings are read back from storage. Proxy URLs are left out, since they
only matter to the requests of a project.
-/

namespace Brunomnia.Konnect

/-! ## Texts -/

/-- The rest of a text after the first occurrence of a pair of letters. -/
def dropThrough (first second : Char) : List Char → Option (List Char)
  | [] => none
  | [_] => none
  | letter :: next :: rest =>
      if letter = first ∧ next = second then some rest
      else dropThrough first second (next :: rest)

/-- Remove every shortest stretch from `{` and a letter to a letter and `}`. -/
def removeTags (opener closer : Char) : ℕ → List Char → List Char
  | 0, text => text
  | fuel + 1, text =>
      match text with
      | [] => []
      | letter :: rest =>
          if letter = '{' ∧ rest.head? = some opener then
            match dropThrough closer '}' rest.tail with
            | some after => removeTags opener closer fuel after
            | none => letter :: removeTags opener closer fuel rest
          else letter :: removeTags opener closer fuel rest

/-- One round of the loop in `stripTemplateSyntax`. -/
def stripOnce (text : List Char) : List Char :=
  let withoutExpressions := removeTags '{' '}' text.length text
  removeTags '%' '%' withoutExpressions.length withoutExpressions

/-- A round that changes a text makes it shorter, so that its length bounds the rounds. -/
def stripTemplateSyntax (value : String) : String :=
  String.ofList (stripOnce^[value.toList.length] value.toList)

/-- `value || undefined` -/
def orUndefined (value : String) : Option String :=
  if value = "" then none else some value

/-! ## Records -/

inductive DeploymentType where
  | k8sIngressController
  | dedicatedCloud
  | serverless
  | group
  | selfManaged
  deriving DecidableEq

structure KonnectControlPlane where
  id : String
  name : String
  description : String
  region : String
  clusterType : String
  deploymentType : DeploymentType
  deriving DecidableEq

def konnectDeploymentType (clusterType : String) (cloudGateway : Bool) : DeploymentType :=
  if clusterType = "CLUSTER_TYPE_K8S_INGRESS_CONTROLLER" then .k8sIngressController
  else if clusterType = "CLUSTER_TYPE_CONTROL_PLANE_GROUP" then .group
  else if clusterType ∈ ["CLUSTER_TYPE_SERVERLESS", "CLUSTER_TYPE_SERVERLESS_V1",
      "CLUSTER_TYPE_CLOUD_API_GATEWAY"] then .serverless
  else if clusterType = "CLUSTER_TYPE_CONTROL_PLANE" ∧ cloudGateway then .dedicatedCloud
  else .selfManaged

/-- One record of the remote list; what is no object or has no identifier is passed over. -/
def parseKonnectControlPlane (region : String) (plane : Json) : Option KonnectControlPlane :=
  let id := plane.text "id"
  let remoteConfig := (plane.get? "config").getD .null
  let clusterType := sliceUnits (stripTemplateSyntax (remoteConfig.text "cluster_type")) 200
  let name := sliceUnits (stripTemplateSyntax (plane.text "name")) 500
  if id = "" then none
  else some {
    id := id
    name := if name = "" then id else name
    description := sliceUnits (stripTemplateSyntax (plane.text "description")) 20000
    region := region
    clusterType := clusterType
    deploymentType := konnectDeploymentType clusterType (remoteConfig.flag "cloud_gateway") }

def parseKonnectControlPlanes (records : List Json) (region : String) :
    List KonnectControlPlane :=
  records.filterMap (parseKonnectControlPlane region)

/-- The settings of a project. What is optional is absent or a text that is not empty. -/
structure KonnectConfig where
  enabled : Bool
  baseUrl : String
  token : String
  controlPlaneId : String
  controlPlanes : List KonnectControlPlane
  managedByWorkspaceId : Option String
  managedControlPlaneId : Option String
  managedRegion : Option String
  managedClusterType : Option String
  managedDeploymentType : Option DeploymentType
  lastSyncedAt : Option String

def defaultKonnectConfig : KonnectConfig where
  enabled := false
  baseUrl := "https://us.api.konghq.com"
  token := ""
  controlPlaneId := ""
  controlPlanes := []
  managedByWorkspaceId := none
  managedControlPlaneId := none
  managedRegion := none
  managedClusterType := none
  managedDeploymentType := none
  lastSyncedAt := none

/-! ## Reading back -/

/-- The letters of `[a-z0-9-]`, in either case. -/
def isRegionLetter (letter : Char) : Bool :=
  isAlphanumeric letter || letter = '-'

def normalizeRegion (region : String) : String :=
  sliceUnits (String.ofList (region.toList.filter isRegionLetter)) 32

def normalizeControlPlane (plane : KonnectControlPlane) : Option KonnectControlPlane :=
  if plane.id = "" then none
  else some { plane with
    name := sliceUnits plane.name 500
    description := sliceUnits plane.description 20000
    region := normalizeRegion plane.region
    clusterType := sliceUnits plane.clusterType 200 }

/-- A text that is cut and left out if nothing of it is left. -/
def cutOptional (value : Option String) (limit : ℕ) : Option String :=
  value.bind fun text => orUndefined (sliceUnits text limit)

def normalizeKonnect (config : KonnectConfig) : KonnectConfig :=
  { config with
    controlPlanes := (config.controlPlanes.filterMap normalizeControlPlane).take 1000
    managedByWorkspaceId := cutOptional config.managedByWorkspaceId 128
    managedControlPlaneId := cutOptional config.managedControlPlaneId 500
    managedRegion := config.managedRegion.bind fun region => orUndefined (normalizeRegion region)
    managedClusterType := cutOptional config.managedClusterType 200 }

/-! ## Regions and failures -/

def activeKonnectRegions : List String := ["us", "eu", "au", "in", "sg"]

/-- Why a call of the remote API fails: an answer that is no success, or something else that was
raised. -/
inductive Failure where
  | answered (status : ℕ) (body : String)
  | raised (message : String)
  deriving DecidableEq

def Failure.message : Failure → String
  | .answered status body =>
      if status = 401 ∨ status = 403 then
        s!"Konnect rejected the access token ({status}). Check its expiry and permissions."
      else s!"Konnect request failed ({status}): {sliceUnits body 2000}"
  | .raised message => message

/-- `\w` -/
def isWordLetter (letter : Char) : Bool :=
  isAlphanumeric letter || letter = '_'

/-- Whether a number occurs in a text as a word of its own, after the letter that precedes it. -/
def hasWord (word : List Char) : Option Char → List Char → Bool
  | _, [] => false
  | before, letter :: rest =>
      (word.isPrefixOf (letter :: rest) && !(before.any isWordLetter) &&
        !(((letter :: rest).drop word.length).head?.any isWordLetter)) ||
      hasWord word (some letter) rest

/-- `/\b403\b/.test(message)` -/
def mentionsForbidden (message : String) : Bool :=
  hasWord "403".toList none message.toList

def isSingaporePermissionGap (region : String) (failure : Failure) : Bool :=
  region = "sg" ∧ mentionsForbidden failure.message

def skippedRegionMessage (region : String) (failure : Failure) : String :=
  s!"{region}: {failure.message}"

/-! ## What is kept of a managed project -/

theorem cutOptional_of_fits {text : String} {limit : ℕ} (nonempty : text ≠ "")
    (fits : utf16Length text ≤ limit) : cutOptional (some text) limit = some text := by
  simp only [cutOptional, Option.bind_some, sliceUnits_eq_self fits, orUndefined,
    if_neg nonempty]

theorem utf16Length_of_cutOptional {value : Option String} {text : String} {limit : ℕ}
    (cut : cutOptional value limit = some text) : utf16Length text ≤ limit := by
  rcases Option.bind_eq_some_iff.mp cut with ⟨original, _, kept⟩
  simp only [orUndefined] at kept
  split at kept
  case isTrue => exact absurd kept (by simp)
  case isFalse =>
      rw [Option.some.injEq] at kept
      rw [← kept]
      exact utf16Length_sliceUnits_le original limit

theorem normalizeRegion_of_active {region : String} (active : region ∈ activeKonnectRegions) :
    orUndefined (normalizeRegion region) = some region := by
  simp only [activeKonnectRegions, List.mem_cons, List.not_mem_nil, or_false] at active
  rcases active with rfl | rfl | rfl | rfl | rfl <;> decide

theorem id_ne_empty_of_parsed {records : List Json} {region : String}
    {plane : KonnectControlPlane} (parsed : plane ∈ parseKonnectControlPlanes records region) :
    plane.id ≠ "" := by
  rcases List.mem_filterMap.mp parsed with ⟨record, _, isPlane⟩
  simp only [parseKonnectControlPlane] at isPlane
  split at isPlane
  case isTrue => exact absurd isPlane (by simp)
  case isFalse nonempty =>
      rw [Option.some.injEq] at isPlane
      rwa [← isPlane]

theorem region_of_parsed {records : List Json} {region : String}
    {plane : KonnectControlPlane} (parsed : plane ∈ parseKonnectControlPlanes records region) :
    plane.region = region := by
  rcases List.mem_filterMap.mp parsed with ⟨record, _, isPlane⟩
  simp only [parseKonnectControlPlane] at isPlane
  split at isPlane
  case isTrue => exact absurd isPlane (by simp)
  case isFalse =>
      rw [Option.some.injEq] at isPlane
      rw [← isPlane]

end Brunomnia.Konnect
