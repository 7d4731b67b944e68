/-
The quorum check of the operator.  It counts healthy members among all members,
learners included, while only voters make a quorum, so the verdict is the voters' one
as long as the learners of the list do not tip the count.  With a certificate the
query answers with no member yet, and there is nothing to tip.
-/
import Mathlib.Data.Multiset.UnionInter
import PiCluster.Lib.Text

namespace PiCluster

open Text

namespace EtcdHealthChecker

section Query

variable (checker : EtcdHealthChecker) (fileExists : Str → Bool)

end Query

section Voting

variable (members : List EtcdMember)

end Voting

section Verdict

variable {checker : EtcdHealthChecker} {fileExists : Str → Bool} {members : List EtcdMember}

end Verdict

namespace QuorumWitness

end QuorumWitness

end EtcdHealthChecker

end PiCluster
