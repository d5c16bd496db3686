import RecordStore.Bytes
import RecordStore.Utf8
import RecordStore.PyFloat
import RecordStore.PyStr
import RecordStore.Codec
import RecordStore.Store
import RecordStore.Scan
import RecordStore.Shift
import RecordStore.Search
import RecordStore.SearchSpec
import RecordStore.Menu
import RecordStore.Refinement
import RecordStore.Widen
import RecordStore.Reread
import RecordStore.Main
import RecordStore.MainSpec
import RecordStore.MainInv
import RecordStore.MainRaises
