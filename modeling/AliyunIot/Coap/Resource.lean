import AliyunIot.Coap.Message
import AliyunIot.Infra.CStr
import AliyunIot.Lib.First
import Mathlib.Data.List.Infix

/-!
# CoAP resources

`CoAPResource.c`: the table of resources, kept by checksum for a path and by
text for a `/#` filter, in the order of registration.
-/

namespace AliyunIot.Coap

open Lib

abbrev chSlash : UInt8 := 0x2F
abbrev chHash : UInt8 := 0x23

abbrev coapPathDefaultSumLen : Nat := 5

inductive PathType where
  | normal | filter
  deriving DecidableEq

/-- What a registration attaches to a path. -/
structure ResourceEntry where
  permission : UInt16
  ctype : UInt32
  maxage : UInt32
  callback : Option Nat
  deriving DecidableEq

/-- `CoAPResource`; `path` is the checksum, all zero for a filter. -/
structure CoapResource where
  entry : ResourceEntry
  path : List UInt8
  filterPath : Option CStr
  pathType : PathType

/-- The `CoAPList` of resources. -/
abbrev ResourceList := CoapList CoapResource

/-- `CoAPResource_init`; `res_maxcount` is truncated to an `unsigned char`. -/
def coapResourceInit (resMaxcount : UInt8) : ResourceList := ⟨[], 0, resMaxcount⟩

section
variable (md5 : List UInt8 → List UInt8)

/-- `CoAPPathMD5_sum` into a zeroed buffer of five bytes; it does nothing for the
empty path. `md5` is `utils_md5`. -/
def coapPathMd5Sum (path : CStr) : List UInt8 :=
  if path.val = [] then List.replicate coapPathDefaultSumLen 0
  else (md5 path.val).take coapPathDefaultSumLen

/-- `strstr(path, "/#") != NULL`. -/
def hasFilterMark (path : CStr) : Bool := decide ([chSlash, chHash] <:+: path.val)

/-- The outcomes of the two allocations of `CoAPResource_create`. -/
structure CreateIo where
  node : Bool
  filterPath : Bool

def coapResourceCreate (path : CStr) (pathType : PathType) (entry : ResourceEntry)
    (io : CreateIo) : Option CoapResource :=
  if path.strlen ≥ coapMsgMaxPathLen then none
  else if io.node = false then none
  else
    match pathType with
    | .normal => some ⟨entry, coapPathMd5Sum md5 path, none, .normal⟩
    | .filter =>
      if io.filterPath = false then none
      else some ⟨entry, List.replicate coapPathDefaultSumLen 0, some path, .filter⟩

/-- The node the loop of `CoAPResource_register` takes for already existing:
same checksum, or a filter whose text starts with `path`. -/
def sameResource (path : CStr) (type : PathType) (pathCalc : List UInt8) (node : CoapResource) :
    Bool :=
  match type, node.pathType with
  | .normal, .normal => pathCalc = node.path
  | .filter, .filter => (node.filterPath.map fun f => path.val.isPrefixOf f.val).getD false
  | _, _ => false

/-- The loop over the list: the first such node is rewritten. -/
def rewriteFirst (same : CoapResource → Bool) (entry : ResourceEntry) (list : List CoapResource) :
    Option (List CoapResource) :=
  (splitFirst same list).map fun (as, node, bs) => as ++ { node with entry := entry } :: bs

/-- `CoAPResource_register` for a context: the result and the list. -/
def coapResourceRegister (resource : ResourceList) (path : CStr) (entry : ResourceEntry)
    (io : CreateIo) : Int × ResourceList :=
  if resource.count ≥ resource.maxcount then (coapErrorDataSize, resource)
  else
    let type := if hasFilterMark path then PathType.filter else .normal
    let pathCalc := if hasFilterMark path then List.replicate coapPathDefaultSumLen 0
      else coapPathMd5Sum md5 path
    match rewriteFirst (sameResource path type pathCalc) entry resource.list with
    | some list => (coapSuccess, { resource with list := list })
    | none =>
      match coapResourceCreate md5 path type entry io with
      | some newnode =>
        (coapSuccess,
          { resource with list := resource.list ++ [newnode], count := resource.count + 1 })
      | none => (coapSuccess, resource)

/-- `CoAPResource_topicFilterMatch(filter, topic) == 0`. -/
def coapResourceTopicFilterMatch (filter topic : CStr) : Bool :=
  (filter.val.take (filter.strlen - 1)).isPrefixOf topic.val &&
    decide (topic.strlen > filter.strlen - 1) &&
    !(topic.val.drop (filter.strlen - 1)).contains chSlash

/-- The test of `CoAPResourceByPath_get` on one node. -/
def answersPath (path : CStr) (node : CoapResource) : Bool :=
  decide (coapPathMd5Sum md5 path = node.path) ||
    (decide (node.pathType = .filter) &&
      (node.filterPath.map fun f =>
        decide (f.strlen > 0) && coapResourceTopicFilterMatch f path).getD false)

def coapResourceByPathGet (resource : ResourceList) (path : CStr) : Option CoapResource :=
  resource.list.find? (answersPath md5 path)

end

end AliyunIot.Coap
