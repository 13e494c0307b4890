import SentinelNet.PolicyTest.Model

/-!
# FortiOS factory objects

`services/policy_test/builtins.py`: the addresses and services a FortiOS configuration may name
without defining them.  A service has three dimensions, each of which is `none` when the service
does not restrict it.

* `lookupBuiltinAddress`, `lookupBuiltinService`: by name, whatever its case.
* `lookupBuiltinService_proper`: no service of the table has an empty dimension.
-/

namespace SentinelNet.PolicyTest

open PyText

/-- A service as the source keeps it: protocols, destination ports and ICMP types. -/
structure ServiceDef where
  protos : Option (List ℤ) := none
  dstPorts : Option (List (ℤ × ℤ)) := none
  icmpTypes : Option (List ℤ) := none
  deriving DecidableEq

/-- No dimension is restricted to nothing. -/
structure ServiceDef.Proper (d : ServiceDef) : Prop where
  protos : d.protos ≠ some []
  dstPorts : d.dstPorts ≠ some []
  icmpTypes : d.icmpTypes ≠ some []

def builtinAddresses : PyDict.Dict (List Cube) :=
  [("all", [Cube.any]), ("none", []), ("all_ipv4", [Cube.any])]

def builtinServices : PyDict.Dict ServiceDef :=
  [("all", {}),
    ("all_tcp", { protos := some [6], dstPorts := some [(1, 65535)] }),
    ("all_udp", { protos := some [17], dstPorts := some [(1, 65535)] }),
    ("all_icmp", { protos := some [1] }),
    ("ping", { protos := some [1], icmpTypes := some [8] }),
    ("http", { protos := some [6], dstPorts := some [(80, 80)] }),
    ("https", { protos := some [6], dstPorts := some [(443, 443)] }),
    ("ssh", { protos := some [6], dstPorts := some [(22, 22)] }),
    ("telnet", { protos := some [6], dstPorts := some [(23, 23)] }),
    ("dns", { protos := some [6, 17], dstPorts := some [(53, 53)] }),
    ("smtp", { protos := some [6], dstPorts := some [(25, 25)] }),
    ("smtps", { protos := some [6], dstPorts := some [(465, 465)] }),
    ("ftp", { protos := some [6], dstPorts := some [(21, 21)] }),
    ("ftp_get", { protos := some [6], dstPorts := some [(21, 21)] }),
    ("ftp_put", { protos := some [6], dstPorts := some [(21, 21)] }),
    ("ntp", { protos := some [17], dstPorts := some [(123, 123)] }),
    ("snmp", { protos := some [17], dstPorts := some [(161, 162)] }),
    ("rdp", { protos := some [6, 17], dstPorts := some [(3389, 3389)] }),
    ("syslog", { protos := some [17], dstPorts := some [(514, 514)] }),
    ("ike", { protos := some [17], dstPorts := some [(500, 500), (4500, 4500)] }),
    ("ldap", { protos := some [6], dstPorts := some [(389, 389)] }),
    ("ldaps", { protos := some [6], dstPorts := some [(636, 636)] }),
    ("radius", { protos := some [17], dstPorts := some [(1812, 1813)] }),
    ("radius-acct", { protos := some [17], dstPorts := some [(1813, 1813)] }),
    ("kerberos", { protos := some [6, 17], dstPorts := some [(88, 88)] }),
    ("imap", { protos := some [6], dstPorts := some [(143, 143)] }),
    ("imaps", { protos := some [6], dstPorts := some [(993, 993)] }),
    ("pop3", { protos := some [6], dstPorts := some [(110, 110)] }),
    ("pop3s", { protos := some [6], dstPorts := some [(995, 995)] }),
    ("mysql", { protos := some [6], dstPorts := some [(3306, 3306)] }),
    ("mssql", { protos := some [6], dstPorts := some [(1433, 1433)] }),
    ("ms-sql", { protos := some [6], dstPorts := some [(1433, 1433)] }),
    ("oracle", { protos := some [6], dstPorts := some [(1521, 1521)] }),
    ("sip", { protos := some [6, 17], dstPorts := some [(5060, 5060)] }),
    ("squid", { protos := some [6], dstPorts := some [(3128, 3128)] }),
    ("vnc", { protos := some [6], dstPorts := some [(5900, 5900)] }),
    ("bgp", { protos := some [6], dstPorts := some [(179, 179)] }),
    ("gre", { protos := some [47] }),
    ("ah", { protos := some [51] }),
    ("esp", { protos := some [50] }),
    ("ospf", { protos := some [89] }),
    ("webaccess", { protos := some [6], dstPorts := some [(80, 80), (443, 443)] })]

def lookupBuiltinAddress (name : String) : Option (List Cube) :=
  PyDict.get? builtinAddresses (lower (strip name))

def lookupBuiltinService (name : String) : Option ServiceDef :=
  PyDict.get? builtinServices (lower (strip name))

/-- No service of the table has an empty dimension. -/
theorem lookupBuiltinService_proper {name : String} {d : ServiceDef}
    (h : lookupBuiltinService name = some d) : d.Proper := by
  have hall : ∀ p ∈ builtinServices, p.2.protos ≠ some [] ∧ p.2.dstPorts ≠ some [] ∧
      p.2.icmpTypes ≠ some [] := by decide
  obtain ⟨hp, hd, hi⟩ := hall _ (PyDict.mem_of_get? h)
  exact ⟨hp, hd, hi⟩

end SentinelNet.PolicyTest
