/-
Which PiNode a booting board is.  The ProxyDHCP server looks the board up by its
MAC address alone; the HTTP server takes the first node that matches the MAC
address, the serial or the address of the peer.
-/
import Mathlib.Data.List.TakeWhile
import PiCluster.Crd
import PiCluster.Lib.Wire

namespace PiCluster

open Text

/-- A listed PiNode with its object name. -/
structure NodeObject where
  name : Option Str
  node : PiNode
deriving DecidableEq, Repr

/-- `str::eq_ignore_ascii_case`. -/
def eqIgnoreAsciiCase (left right : Str) : Bool :=
  left.map Char.toLower == right.map Char.toLower

/-- `{:02x}`. -/
def hexByte (byte : UInt8) : Str :=
  [Wire.hexDigit (byte.toNat / 16), Wire.hexDigit (byte.toNat % 16)]

def hasMac (mac : Str) (object : NodeObject) : Bool :=
  eqIgnoreAsciiCase object.node.spec.macAddress mac

namespace ProxyDhcpServer

/-- The MAC address as `process_packet` formats it. -/
def macString (chaddr : List UInt8) : Str :=
  if 6 ≤ chaddr.length then join ":".toList ((chaddr.take 6).map hexByte)
  else "00:00:00:00:00:00".toList

/-- The node `resolve_boot_file` stops at. -/
def selectNode (mac : Str) (nodes : List NodeObject) : Option NodeObject :=
  nodes.find? (hasMac mac)

/-- `registered` is what the API server lists; there is nothing without a client
or when the request fails. -/
def resolveBootFile (bootFile : Str) (registered : Option (List NodeObject)) (mac : Str) :
    Str :=
  match registered.bind (selectNode mac) with
  | some object => object.node.spec.hardwareSerial ++ "/bootcode.bin".toList
  | none => bootFile

end ProxyDhcpServer

structure NodeQuery where
  mac : Option Str
  serial : Option Str
deriving DecidableEq, Repr

namespace Http

/-- The serial a query asks for. -/
def hasSerial (serial : Option Str) (object : NodeObject) : Bool :=
  serial.any fun wanted => object.node.spec.hardwareSerial == wanted

/-- The registered address is that of the peer. -/
def hasIp (peerIp : Str) (object : NodeObject) : Bool :=
  object.node.spec.ipAddress.any fun ip => ip == peerIp

/-- The three tests of the loop body. -/
def matchesQuery (peerIp : Str) (query : NodeQuery) (object : NodeObject) : Bool :=
  query.mac.any (fun mac => hasMac mac object) || hasSerial query.serial object ||
    hasIp peerIp object

/-- A board that is not registered yet. -/
def fallbackNode (peerIp : Str) (query : NodeQuery) : NodeObject :=
  let serial := query.serial.getD ("unknown-".toList ++ peerIp)
  { name := some ("node-".toList ++ serial)
    node :=
      { spec :=
          { hardwareSerial := serial
            macAddress := query.mac.getD []
            desiredRole := .worker
            targetDiskId := none
            reformatConfirmed := false
            ipAddress := some peerIp
            hostname := none }
        status := none } }

def resolveNode (registered : Option (List NodeObject)) (peerIp : Str) (query : NodeQuery) :
    NodeObject :=
  match registered.bind fun nodes => nodes.find? (matchesQuery peerIp query) with
  | some object => object
  | none => fallbackNode peerIp query

end Http

/-- A wider search stops at the same element exactly when nothing before it
passes the wider test. -/
theorem find?_widen_iff {α : Type} {narrow wide : α → Bool} {xs : List α} {x : α}
    (hfind : xs.find? narrow = some x) (himp : ∀ y, narrow y = true → wide y = true) :
    xs.find? wide = some x ↔
      ∀ y ∈ xs.takeWhile (fun y => !narrow y), wide y = false := by
  induction xs with
  | nil => cases hfind
  | cons head rest ih =>
      cases hhead : narrow head with
      | true =>
          have hx : head = x := by simpa [List.find?_cons, hhead] using hfind
          subst hx
          simp [himp head hhead, hhead]
      | false =>
          have hrest : rest.find? narrow = some x := by
            simpa [List.find?_cons, hhead] using hfind
          cases hwide : wide head with
          | false => simpa [List.find?_cons, hhead, hwide] using ih hrest
          | true =>
              have hne : head ≠ x := by
                rintro rfl
                rw [List.find?_some hrest] at hhead
                cases hhead
              simp [hhead, hwide, hne]

namespace Http

/-- Where the ProxyDHCP server finds a node, the HTTP server finds the same one
exactly when no node listed before it has the serial of the query or the address
of the peer. -/
theorem resolveNode_eq_selectNode_iff {nodes : List NodeObject} {chaddr : List UInt8}
    {object : NodeObject}
    (hselects : ProxyDhcpServer.selectNode (ProxyDhcpServer.macString chaddr) nodes =
      some object) (serial : Option Str) (peerIp : Str) :
    resolveNode (some nodes) peerIp ⟨some (ProxyDhcpServer.macString chaddr), serial⟩ =
        object ↔
      ∀ earlier ∈ nodes.takeWhile
          (fun other => !hasMac (ProxyDhcpServer.macString chaddr) other),
        hasSerial serial earlier = false ∧ hasIp peerIp earlier = false := by
  generalize ProxyDhcpServer.macString chaddr = mac at hselects ⊢
  have hwider : ∀ other, hasMac mac other = true →
      matchesQuery peerIp ⟨some mac, serial⟩ other = true := by
    intro other hother
    simp [matchesQuery, hother]
  have hsearch : resolveNode (some nodes) peerIp ⟨some mac, serial⟩ = object ↔
      nodes.find? (matchesQuery peerIp ⟨some mac, serial⟩) = some object := by
    simp only [resolveNode, Option.bind_some]
    cases hfind : nodes.find? (matchesQuery peerIp ⟨some mac, serial⟩) with
    | some found => simp
    | none =>
        have hmem := List.mem_of_find?_eq_some hselects
        exact absurd (hwider object (List.find?_some hselects))
          (List.find?_eq_none.mp hfind object hmem)
  rw [hsearch, find?_widen_iff hselects hwider]
  refine forall₂_congr fun earlier hearlier => ?_
  have hmac : hasMac mac earlier = false := by
    simpa using List.mem_takeWhile_imp hearlier
  simp [matchesQuery, hmac]

namespace LookupWitness

def board (serial mac : Str) (ip : Option Str) : NodeObject :=
  ⟨some ("node-".toList ++ serial), ⟨⟨serial, mac, .worker, none, false, ip, none⟩, none⟩⟩

def chaddr : List UInt8 := [0xdc, 0xa6, 0x32, 0x01, 0x02, 0x03]

def first : NodeObject := board "aaaa".toList "DC:A6:32:01:02:03".toList none

/-- Another board, registered with an address it no longer has. -/
def stale : NodeObject :=
  board "bbbb".toList "dc:a6:32:0a:0b:0c".toList (some "192.168.1.50".toList)

theorem first_found_by_both :
    resolveNode (some [first, stale]) "192.168.1.50".toList
      ⟨some (ProxyDhcpServer.macString chaddr), none⟩ = first := by
  have hselects : ProxyDhcpServer.selectNode (ProxyDhcpServer.macString chaddr)
      [first, stale] = some first := by decide
  refine (resolveNode_eq_selectNode_iff hselects none "192.168.1.50".toList).mpr ?_
  intro earlier hearlier
  have hnone : [first, stale].takeWhile
      (fun other => !hasMac (ProxyDhcpServer.macString chaddr) other) = [] := by decide
  rw [hnone] at hearlier
  cases hearlier

/-- The board gets the configuration of another one. -/
theorem stale_address_wins :
    ProxyDhcpServer.selectNode (ProxyDhcpServer.macString chaddr) [stale, first] =
        some first ∧
      resolveNode (some [stale, first]) "192.168.1.50".toList
        ⟨some (ProxyDhcpServer.macString chaddr), none⟩ = stale ∧
      stale ≠ first := by
  decide

end LookupWitness

end Http

end PiCluster
