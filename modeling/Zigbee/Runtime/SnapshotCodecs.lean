import Zigbee.Runtime.ApsTables
import Zigbee.Runtime.ChildTableCodec
import Zigbee.Runtime.TrustCenterState

/-!
# The three snapshot codecs

Trust Center state, child table and APS tables are each stored as one encoded snapshot.  The codecs are
exact: nothing of a valid value is lost, and whatever a decoder of any version accepts is valid and
survives being written again.
-/

namespace Zigbee.Runtime

open Records (ExactCodec)

/-- **Snapshot codecs are exact.** -/
theorem snapshot_codecs_exact (f : Features) :
    ExactCodec (fun s : PersistentTrustCenterState => s.validate = .ok ()) PersistentTrustCenterState.encode
        MAX_ENCODED_TRUST_CENTER_STATE_LEN PersistentTrustCenterState.decode
        [PersistentTrustCenterState.decode, PersistentTrustCenterState.decodeV3, PersistentTrustCenterState.decodeV2,
          PersistentTrustCenterState.decodeV1] ∧
      ExactCodec (fun t : PersistentChildTable => t.validate = .ok ()) PersistentChildTable.encode MAX_ENCODED_CHILD_TABLE_LEN
        PersistentChildTable.decode
        [PersistentChildTable.decode, PersistentChildTable.decodeV4, PersistentChildTable.decodeV3,
          PersistentChildTable.decodeV2] ∧
      ExactCodec (fun t : PersistentApsTables f => t.validate = .ok ()) PersistentApsTables.encode
        (MAX_ENCODED_APS_TABLES_LEN f) PersistentApsTables.decode [PersistentApsTables.decode] :=
  ⟨PersistentTrustCenterState.codec_exact, PersistentChildTable.codec_exact, PersistentApsTables.codec_exact f⟩

end Zigbee.Runtime
