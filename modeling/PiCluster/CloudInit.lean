/-
The user-data a booting node is sent.  The role file is pasted into the template
as escaped JSON; host name, address and token are pasted as they are.
-/
import PiCluster.AuditJson
import PiCluster.CrdSchema
import PiCluster.Provision

namespace PiCluster

open Text Wire

namespace RoleConfigFile

/-- A member of an object as a derived reader takes it: a key that stands twice
is an error. -/
def readMember {α : Type} (read : Option JsonValue → Option α) (name : Str)
    (object : JsonObject) : Option α :=
  match object.filter fun member => member.1 == name with
  | [] => read none
  | [member] => read (some member.2)
  | _ => none

def readRole : Option JsonValue → Option NodeRole
  | some (.str name) => roleNames.lookup name
  | _ => none

def readTargetDiskId : Option JsonValue → Option (Option Str)
  | none => some none
  | some .null => some none
  | some (.str id) => some (some id)
  | _ => none

def readReformatConfirmed : Option JsonValue → Option (Option Bool)
  | none => some none
  | some .null => some none
  | some (.bool confirmed) => some (some confirmed)
  | _ => none

def ofJson (object : JsonObject) : Option RoleConfigFile := do
  let role ← readMember readRole "role".toList object
  let targetDiskId ← readMember readTargetDiskId "target_disk_id".toList object
  let reformatConfirmed ←
    readMember readReformatConfirmed "reformat_confirmed".toList object
  return ⟨role, targetDiskId, reformatConfirmed⟩

end RoleConfigFile

namespace CloudInitGenerator

def hostname (spec : PiNodeSpec) : Str :=
  spec.hostname.getD ("pi-".toList ++ spec.hardwareSerial)

def isServer (role : NodeRole) : Bool := role = .master ∨ role = .seed

def k3sServiceName (role : NodeRole) : Str :=
  if isServer role then "k3s.service".toList else "k3s-agent.service".toList

def k3sInstallCmd (role : NodeRole) (vip k3sToken : Str) : Str :=
  if isServer role then
    "curl -sfL https://get.k3s.io | K3S_URL=https://".toList ++ vip ++
      ":6443 K3S_TOKEN=".toList ++ k3sToken ++
      " INSTALL_K3S_EXEC=\"server --server https://".toList ++ vip ++
      ":6443\" sh -".toList
  else
    "curl -sfL https://get.k3s.io | K3S_URL=https://".toList ++ vip ++
      ":6443 K3S_TOKEN=".toList ++ k3sToken ++ " sh -".toList

/-- The members in the order of the map. -/
def roleJson (spec : PiNodeSpec) : JsonObject :=
  [("reformat_confirmed".toList, .bool spec.reformatConfirmed),
    ("role".toList, .str spec.desiredRole.debug),
    ("target_disk_id".toList, .ofOption spec.targetDiskId)]

def contentLine : Str := "    content: |".toList

def indentation : Str := "      ".toList

def preamble : List Str := ["#cloud-config".toList]

def roleFileHead : List Str :=
  ["manage_etc_hosts: true".toList,
    [],
    "write_files:".toList,
    "  - path: /etc/cluster-ldm/role.json".toList,
    "    permissions: '0644'".toList]

def unitHead : List Str :=
  [[],
    "  - path: /etc/systemd/system/cluster-ldm.service".toList,
    "    permissions: '0644'".toList,
    contentLine,
    "      [Unit]".toList,
    "      Description=Pi Cluster Local Disk Manager".toList,
    "      After=local-fs-pre.target".toList]

def unitRest : List Str :=
  ["      [Service]".toList,
    "      Type=oneshot".toList,
    "      RemainAfterExit=yes".toList,
    "      ExecStart=/usr/local/bin/cluster-ldm provision --role-source=".toList ++
      "/etc/cluster-ldm/role.json".toList,
    "      ExecStartPost=/usr/local/bin/cluster-ldm ipc-serve --socket=".toList ++
      "/run/cluster-ldm.sock &".toList,
    "      [Install]".toList,
    "      WantedBy=multi-user.target".toList,
    [],
    "runcmd:".toList,
    "  - systemctl daemon-reload".toList,
    "  - systemctl enable --now cluster-ldm.service".toList]

/-- The lines of the template with its four placeholders filled in. -/
def templateLines (hostname roleJson k3sServiceName k3sInstallCmd : Str) : List Str :=
  preamble ++ ("hostname: ".toList ++ hostname) ::
    (roleFileHead ++ contentLine :: (indentation ++ roleJson) ::
      (unitHead ++ ("      Before=".toList ++ k3sServiceName) ::
        (unitRest ++ ["  - ".toList ++ k3sInstallCmd])))

def templateLineCount : Nat := (templateLines [] [] [] []).length

/-- `json` is how a value is written and read back as JSON text. -/
def generateUserData (json : Format JsonObject) (node : PiNode) (vip k3sToken : Str) : Str :=
  (templateLines (hostname node.spec) (json.print (roleJson node.spec))
    (k3sServiceName node.spec.desiredRole)
    (k3sInstallCmd node.spec.desiredRole vip k3sToken)).flatMap (· ++ ['\n'])

/-- The line after the first one that opens a block of content. -/
def firstContent (userData : Str) : Option Str :=
  ((lines userData).dropWhile fun line => line != contentLine).tail.head?

/-- The role file as the node will read it. -/
def embeddedRole (json : Format JsonObject) (userData : Str) : Option RoleConfigFile := do
  let line ← firstContent userData
  let text ← expect indentation line
  let object ← json.decode text
  RoleConfigFile.ofJson object

theorem lookup_roleNames (role : NodeRole) : roleNames.lookup role.debug = some role := by
  cases role <;> decide

theorem ofJson_roleJson (spec : PiNodeSpec) :
    RoleConfigFile.ofJson (roleJson spec) =
      some ⟨spec.desiredRole, spec.targetDiskId, some spec.reformatConfirmed⟩ := by
  have hrole : RoleConfigFile.readMember RoleConfigFile.readRole "role".toList
      (roleJson spec) = some spec.desiredRole := lookup_roleNames spec.desiredRole
  have htarget : RoleConfigFile.readMember RoleConfigFile.readTargetDiskId
      "target_disk_id".toList (roleJson spec) = some spec.targetDiskId := by
    cases htarget : spec.targetDiskId <;>
      simp [RoleConfigFile.readMember, RoleConfigFile.readTargetDiskId, roleJson, htarget,
        JsonValue.ofOption]
  have hconfirmed : RoleConfigFile.readMember RoleConfigFile.readReformatConfirmed
      "reformat_confirmed".toList (roleJson spec) = some (some spec.reformatConfirmed) := rfl
  rw [RoleConfigFile.ofJson, hrole, htarget, hconfirmed]
  rfl

theorem newline_not_mem_of_plain {text : Str} (hplain : Plain text) : '\n' ∉ text := by
  intro hmem
  have hnewline := hplain _ hmem
  simp [isPlain] at hnewline

section Lines

variable {host json service install : Str}

theorem clean_cons {line : Str} {rest : List Str} (hline : '\n' ∉ line)
    (hrest : ∀ other ∈ rest, '\n' ∉ other) : ∀ other ∈ line :: rest, '\n' ∉ other :=
  List.forall_mem_cons.mpr ⟨hline, hrest⟩

/-- The fixed lines of the template. -/
theorem clean_fixedLines :
    (∀ line ∈ preamble, '\n' ∉ line) ∧ (∀ line ∈ roleFileHead, '\n' ∉ line) ∧
      (∀ line ∈ unitHead, '\n' ∉ line) ∧ ∀ line ∈ unitRest, '\n' ∉ line := by
  simp only [preamble, roleFileHead, unitHead, unitRest, List.forall_mem_cons, List.mem_append,
    not_or, List.not_mem_nil, not_false_eq_true, false_imp_iff, implies_true, and_true, true_and]
  and_intros
  all_goals exact not_mem_literal (by decide)

/-- Only the placeholders can break a line of the template. -/
theorem clean_templateLines_iff :
    (∀ line ∈ templateLines host json service install, '\n' ∉ line) ↔
      '\n' ∉ host ∧ '\n' ∉ json ∧ '\n' ∉ service ∧ '\n' ∉ install := by
  have hslot : ∀ {start slot : Str}, '\n' ∉ start → ('\n' ∉ start ++ slot ↔ '\n' ∉ slot) := by
    intro start slot hstart
    simp [hstart]
  have hcontent : '\n' ∉ contentLine := not_mem_literal (by decide)
  have hindent : '\n' ∉ indentation := not_mem_literal (by decide)
  simp only [templateLines, List.forall_mem_append, List.forall_mem_cons]
  rw [hslot (not_mem_literal (by decide)), hslot hindent,
    hslot (not_mem_literal (by decide)), hslot (not_mem_literal (by decide))]
  constructor
  · rintro ⟨_, hhost, _, _, hjson, _, hservice, _, hinstall, _⟩
    exact ⟨hhost, hjson, hservice, hinstall⟩
  · rintro ⟨hhost, hjson, hservice, hinstall⟩
    obtain ⟨hpreamble, hfile, hunit, hrest⟩ := clean_fixedLines
    exact ⟨hpreamble, hhost, hfile, hcontent, hjson, hunit, hservice, hrest, hinstall,
      List.forall_mem_nil _⟩

theorem length_templateLines :
    (templateLines host json service install).length = templateLineCount := by
  simp [templateLineCount, templateLines]

theorem dropCr_hostname_ne : dropCr ("hostname: ".toList ++ host) ≠ contentLine := by
  intro heq
  rcases dropCr_cases ("hostname: ".toList ++ host) with hsame | hsame
  · rw [heq] at hsame
    cases hsame
  · rw [heq] at hsame
    cases hsame

theorem dropCr_plain {line : Str} (hplain : Plain line) : dropCr line = line := by
  rcases dropCr_cases line with hsame | hsame
  · exact hsame
  · have hcr := hplain '\r' (by rw [hsame]; simp)
    simp [isPlain] at hcr

/-- The first content line is found behind lines that are none. -/
theorem firstContent_append {before : List Str} {text : Str}
    (hclean : ∀ line ∈ before, '\n' ∉ line)
    (hbefore : ∀ line ∈ before, (dropCr line != contentLine) = true) (htext : Plain text)
    (rest : Str) :
    firstContent ((before ++ [contentLine, indentation ++ text]).flatMap (· ++ ['\n']) ++
      rest) = some (indentation ++ text) := by
  have hindent : Plain indentation := List.all_eq_true.mp (by decide)
  have hplain := plain_append hindent htext
  have hcontent : dropCr contentLine = contentLine := by decide
  have hlines : ∀ line ∈ before ++ [contentLine, indentation ++ text], '\n' ∉ line := by
    rw [List.forall_mem_append]
    exact ⟨hclean, clean_cons (not_mem_literal (by decide)) <|
      clean_cons (newline_not_mem_of_plain hplain) (List.forall_mem_nil _)⟩
  have hdropped : ∀ line ∈ before.map dropCr, (line != contentLine) = true := by
    intro line hline
    obtain ⟨old, hold, rfl⟩ := List.mem_map.mp hline
    exact hbefore old hold
  rw [firstContent, lines_flatMap_append hlines, List.map_append, List.append_assoc,
    List.dropWhile_append_of_pos hdropped, List.map_cons, List.cons_append,
    List.dropWhile_cons, hcontent, if_neg (by simp), List.tail_cons, List.map_cons,
    List.cons_append, List.head?_cons, dropCr_plain hplain]

/-- The lines up to the first content line. -/
theorem head_ne_contentLine (host : Str) :
    ∀ line ∈ preamble ++ ("hostname: ".toList ++ host) :: roleFileHead,
      (dropCr line != contentLine) = true := by
  have hhost : (dropCr ("hostname: ".toList ++ host) != contentLine) = true := by
    simpa using dropCr_hostname_ne
  rw [List.forall_mem_append, List.forall_mem_cons]
  exact ⟨List.all_eq_true.mp (by decide), hhost, List.all_eq_true.mp (by decide)⟩

/-- In an unbroken text the role file is the line after the first content line. -/
theorem firstContent_templateLines (hjson : Plain json) (hhost : '\n' ∉ host) :
    firstContent ((templateLines host json service install).flatMap (· ++ ['\n'])) =
      some (indentation ++ json) := by
  have hclean : ∀ line ∈ preamble ++ ("hostname: ".toList ++ host) :: roleFileHead,
      '\n' ∉ line := by
    rw [List.forall_mem_append]
    exact ⟨clean_fixedLines.1, clean_cons
      (List.not_mem_append (not_mem_literal (by decide)) hhost) clean_fixedLines.2.1⟩
  have hsplit : templateLines host json service install =
      (preamble ++ ("hostname: ".toList ++ host) :: roleFileHead) ++
        [contentLine, indentation ++ json] ++
          (unitHead ++ ("      Before=".toList ++ service) ::
            (unitRest ++ ["  - ".toList ++ install])) := by
    simp only [templateLines, List.append_assoc, List.cons_append, List.nil_append]
  rw [hsplit, List.flatMap_append]
  exact firstContent_append hclean (head_ne_contentLine host) hjson _

/-- A host name of three lines brings its own role file. -/
theorem firstContent_smuggled {text : Str} (hhost : '\n' ∉ host) (htext : Plain text) :
    firstContent ((templateLines
        (host ++ '\n' :: (contentLine ++ '\n' :: (indentation ++ text)))
        json service install).flatMap (· ++ ['\n'])) = some (indentation ++ text) := by
  have hclean : ∀ line ∈ preamble ++ ["hostname: ".toList ++ host], '\n' ∉ line := by
    rw [List.forall_mem_append]
    exact ⟨clean_fixedLines.1, clean_cons
      (List.not_mem_append (not_mem_literal (by decide)) hhost) (List.forall_mem_nil _)⟩
  have hbefore : ∀ line ∈ preamble ++ ["hostname: ".toList ++ host],
      (dropCr line != contentLine) = true := by
    intro line hline
    apply head_ne_contentLine host
    rw [List.mem_append, List.mem_singleton] at hline
    rw [List.mem_append, List.mem_cons]
    exact hline.imp_right Or.inl
  have hfound := firstContent_append hclean hbefore htext
    ((roleFileHead ++ contentLine :: (indentation ++ json) ::
      (unitHead ++ ("      Before=".toList ++ service) ::
        (unitRest ++ ["  - ".toList ++ install]))).flatMap (· ++ ['\n']))
  simpa only [templateLines, List.flatMap_append, List.flatMap_cons, List.flatMap_nil,
    List.append_assoc, List.cons_append, List.nil_append] using hfound

end Lines

theorem newline_not_mem_k3sInstallCmd_iff (role : NodeRole) (vip token : Str) :
    '\n' ∉ k3sInstallCmd role vip token ↔ '\n' ∉ vip ∧ '\n' ∉ token := by
  unfold k3sInstallCmd
  split
  · simp only [List.mem_append, not_or]
    constructor
    · rintro ⟨⟨⟨⟨⟨⟨_, hvip⟩, _⟩, htoken⟩, _⟩, _⟩, _⟩
      exact ⟨hvip, htoken⟩
    · rintro ⟨hvip, htoken⟩
      exact ⟨⟨⟨⟨⟨⟨not_mem_literal (by decide), hvip⟩, not_mem_literal (by decide)⟩, htoken⟩,
        not_mem_literal (by decide)⟩, hvip⟩, not_mem_literal (by decide)⟩
  · simp only [List.mem_append, not_or]
    constructor
    · rintro ⟨⟨⟨⟨_, hvip⟩, _⟩, htoken⟩, _⟩
      exact ⟨hvip, htoken⟩
    · rintro ⟨hvip, htoken⟩
      exact ⟨⟨⟨⟨not_mem_literal (by decide), hvip⟩, not_mem_literal (by decide)⟩, htoken⟩,
        not_mem_literal (by decide)⟩

/-- The user-data has the lines of the template and carries the node's role
exactly when nothing that is pasted as it is breaks a line. -/
theorem generateUserData_carries_role_iff (json : Format JsonObject) (node : PiNode)
    (vip k3sToken : Str) :
    ((lines (generateUserData json node vip k3sToken)).length = templateLineCount ∧
        embeddedRole json (generateUserData json node vip k3sToken) =
          some ⟨node.spec.desiredRole, node.spec.targetDiskId,
            some node.spec.reformatConfirmed⟩) ↔
      '\n' ∉ hostname node.spec ∧ '\n' ∉ vip ∧ '\n' ∉ k3sToken := by
  have hplain := json.print_plain (roleJson node.spec)
  have hservice : '\n' ∉ k3sServiceName node.spec.desiredRole := by
    unfold k3sServiceName
    split
    · exact not_mem_literal (by decide)
    · exact not_mem_literal (by decide)
  have hcount : (lines (generateUserData json node vip k3sToken)).length =
      templateLineCount ↔ '\n' ∉ hostname node.spec ∧ '\n' ∉ vip ∧ '\n' ∉ k3sToken := by
    rw [generateUserData, ← length_templateLines, length_lines_flatMap_terminated_iff,
      clean_templateLines_iff, newline_not_mem_k3sInstallCmd_iff]
    simp [newline_not_mem_of_plain hplain, hservice]
  constructor
  · rintro ⟨hlines, _⟩
    exact hcount.mp hlines
  · intro hclean
    refine ⟨hcount.mpr hclean, ?_⟩
    rw [embeddedRole, generateUserData, firstContent_templateLines hplain hclean.1]
    simp [json.decode_print, ofJson_roleJson]

namespace UserDataWitness

/-- A role file for a seed whose disk may be reformatted. -/
def smuggled : JsonObject :=
  [("reformat_confirmed".toList, .bool true), ("role".toList, .str "Seed".toList)]

/-- A worker whose host name ends in that role file. -/
def hostile : PiNode where
  spec :=
    { hardwareSerial := "aaaa".toList
      macAddress := []
      desiredRole := .worker
      targetDiskId := none
      reformatConfirmed := false
      ipAddress := none
      hostname := some (['x'] ++ '\n' :: (contentLine ++ '\n' ::
        (indentation ++ AuditJson.object.print smuggled))) }
  status := none

theorem hostname_replaces_role :
    hostile.spec.desiredRole = .worker ∧ hostile.spec.reformatConfirmed = false ∧
      embeddedRole AuditJson.object
          (generateUserData AuditJson.object hostile "10.0.0.1".toList "t".toList) =
        some ⟨.seed, none, some true⟩ := by
  have hfound : firstContent
      (generateUserData AuditJson.object hostile "10.0.0.1".toList "t".toList) =
        some (indentation ++ AuditJson.object.print smuggled) :=
    firstContent_smuggled (by decide) (AuditJson.object.print_plain smuggled)
  have hrole : RoleConfigFile.ofJson smuggled = some ⟨.seed, none, some true⟩ := by decide
  refine ⟨rfl, rfl, ?_⟩
  rw [embeddedRole, hfound]
  simp [AuditJson.object.decode_print, hrole]

end UserDataWitness

end CloudInitGenerator

end PiCluster
