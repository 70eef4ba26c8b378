import PrimeTester.Cluster.Frontends
import PrimeTester.Cluster.Outcome
import PrimeTester.Cluster.Recovery
import PrimeTester.Cluster.Story
import PrimeTester.TaskStorage.Delivery
import PrimeTester.Worker.Bounds
